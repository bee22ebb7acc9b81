import ScriptEngine.Proofs.Number.Integer
import ScriptEngine.Proofs.Number.ReadsBack
import ScriptEngine.Proofs.Value.Clean
import ScriptEngine.Proofs.Value.Commuting

/-! What is read from tagged text, well formed or not as it was written, can be written and read
again. -/

namespace ScriptEngine

mutual

/-- Whether a value holds no moment at any level. -/
def Value.dateFree : Value → Bool
  | ⟨data, _, _⟩ => data.dateFree

/-- Whether what a value is holds no moment at any level. -/
def Data.dateFree : Data → Bool
  | .dateTime _ => false
  | .collection ⟨items, _⟩ => dateFreeItems items
  | .returnSignal returned => returned.dateFree
  | _ => true

/-- Whether elements hold no moment at any level. -/
def dateFreeItems : List Value → Bool
  | [] => true
  | item :: rest => item.dateFree && dateFreeItems rest

end

/-- Elements hold no moment if none of them does. -/
theorem dateFreeItems_iff {items : List Value} :
    dateFreeItems items = true ↔ ∀ item ∈ items, item.dateFree = true := by
  induction items with
  | nil => simp [dateFreeItems]
  | cons item rest ih => simp [dateFreeItems, ih]

namespace OrderedMap

variable {α : Type}

/-- A write under a bound name binds no other name. -/
theorem names_insert_of_mem {bindings : OrderedMap α} {name : String} (value : α)
    (bound : name ∈ bindings.names) : (bindings.insert name value).names = bindings.names := by
  obtain ⟨entries⟩ := bindings
  simp only [insert, names] at bound ⊢
  -- The induction follows the search for the old place.
  induction entries with
  | nil => cases bound
  | cons entry rest ih =>
    obtain ⟨other, old⟩ := entry
    by_cases same : other = name
    · simp [insertEntry, same]
    · have later : name ∈ rest.map (·.1) := by simpa [Ne.symm same] using bound
      simp [insertEntry, same, ih later]

/-- A write leaves the names distinct. -/
theorem nodup_insert {bindings : OrderedMap α} (distinct : bindings.names.Nodup) (name : String)
    (value : α) : (bindings.insert name value).names.Nodup := by
  by_cases bound : name ∈ bindings.names
  · rwa [names_insert_of_mem value bound]
  · rw [names, insert_new value bound, List.map_append]
    refine List.nodup_append.mpr ⟨distinct, List.nodup_singleton _, ?_⟩
    -- The one name that is new is not among those before it.
    rintro before isBefore added isAdded rfl
    rw [List.map_singleton, List.mem_singleton] at isAdded
    exact bound (by rwa [isAdded] at isBefore)

/-- The names of an ordered map that is made of a list are distinct. -/
theorem nodup_ofList (entries : List (String × α)) : (OrderedMap.ofList entries).names.Nodup :=
  List.foldlRecOn (motive := fun bindings : OrderedMap α => bindings.names.Nodup) entries _
    List.nodup_nil fun _ distinct entry _ => nodup_insert distinct entry.1 entry.2

/-- An ordered map that is made of a list binds only what the list does. -/
theorem mem_ofList {entries : List (String × α)} {entry : String × α}
    (member : entry ∈ (OrderedMap.ofList entries).entries) : entry ∈ entries := by
  refine List.foldlRecOn (motive := fun bindings : OrderedMap α =>
    ∀ entry ∈ bindings.entries, entry ∈ entries) entries _ (by simp [empty]) ?_ entry member
  intro bindings known added isAdded entry here
  rcases mem_insert here with rfl | before
  · exact isAdded
  · exact known entry before

end OrderedMap

namespace Tagged

open Collection (Edit Origin)

/-- The change that an element makes to the map that it is read into. -/
def edit : Option String × Value → Edit Value
  | (some key, value) => .insertKey key value
  | (none, value) => .push value

/-- A map of elements is what their changes make of the empty map. -/
theorem mapOf_eq_run (elements : Elements) :
    mapOf elements = Edit.run .null (Origin.start .map) (elements.map edit) := by
  unfold mapOf Edit.run
  rw [List.foldl_map]
  congr 1
  funext collection ⟨name, value⟩
  cases name <;> rfl

/-- The map for an object is that of its type and its fields. -/
theorem objectOf_eq_mapOf (typeTag : String) (elements : Elements) :
    objectOf typeTag elements = mapOf ((some typeKey, .string typeTag) ::
      elements.map fun (name, value) => (some (name.getD ""), value)) := by
  unfold objectOf mapOf Collection.ofEntries
  rw [List.foldl_cons, List.foldl_cons, List.foldl_map, List.foldl_map]

/-- The keys of a map of elements are in step with its items. -/
theorem inStep_mapOf (elements : Elements) : (mapOf elements).InStep := by
  rw [mapOf_eq_run]
  exact ((Origin.holds .map).run _ _).inStep

/-- A map of elements has an index and holds only values of the elements. -/
theorem mapOf_holds_elements (elements : Elements) :
    (mapOf elements).isMap = true ∧
      ∀ item ∈ (mapOf elements).items, ∃ element ∈ elements, element.2 = item := by
  refine List.foldlRecOn (motive := fun collection : Collection Value =>
    collection.isMap = true ∧ ∀ item ∈ collection.items, ∃ element ∈ elements, element.2 = item)
    elements _ ⟨rfl, by simp [Collection.emptyMap]⟩ ?_
  -- Both hold of the empty map and are kept by each element, with a key or without one.
  rintro collection ⟨isMap, known⟩ ⟨name, value⟩ isElement
  cases name with
  | none =>
    refine ⟨isMap, fun item member => ?_⟩
    rcases List.mem_append.mp member with old | new
    · exact known item old
    · exact ⟨_, isElement, (List.mem_singleton.mp new).symm⟩
  | some key =>
    refine ⟨isMap_insertKey isMap key value, fun item member => ?_⟩
    rcases Collection.mem_insertKey member with old | rfl
    · exact known item old
    · exact ⟨_, isElement, rfl⟩

/-- Elements of which each can be written again, unless it holds a moment. -/
def Elements.Writable (elements : Elements) : Prop :=
  ∀ element ∈ elements, element.2.dateFree = true → element.2.Portable

/-- A map can be written again if the elements that it is made of can. -/
theorem portable_mapOf {elements : Elements} (writable : elements.Writable)
    (free : (Value.collection (mapOf elements)).dateFree = true) :
    (Value.collection (mapOf elements)).Portable := by
  obtain ⟨isMap, held⟩ := mapOf_holds_elements elements
  have itemsFree : dateFreeItems (mapOf elements).items = true := free
  refine .map isMap (inStep_mapOf elements) fun item member => ?_
  -- A value that a later one under its key replaced is not looked at.
  obtain ⟨element, isElement, rfl⟩ := held item member
  exact writable element isElement (dateFreeItems_iff.mp itemsFree _ member)

/-- The map for an object can be written again if the fields of the object can. -/
theorem portable_objectOf (typeTag : String) {elements : Elements} (writable : elements.Writable)
    (free : (Value.collection (objectOf typeTag elements)).dateFree = true) :
    (Value.collection (objectOf typeTag elements)).Portable := by
  rw [objectOf_eq_mapOf] at free ⊢
  refine portable_mapOf (fun element member => ?_) free
  rcases List.mem_cons.mp member with rfl | later
  · exact fun _ => .string typeTag
  · obtain ⟨field, isField, rfl⟩ := List.mem_map.mp later
    exact writable field isField

/-- The enumeration of any elements can be written again: its integers are those of numbers. -/
theorem portable_enumerationOf (name : String) (elements : Elements) :
    (Value.ofData (.enumeration (enumerationOf name elements))).Portable := by
  refine .enumeration (OrderedMap.nodup_ofList _) fun value member => ?_
  obtain ⟨entry, isEntry, rfl⟩ := List.mem_map.mp member
  -- Each entry comes from an element, of which only a number is kept, or zero in its place.
  obtain ⟨⟨given, read⟩, _, rfl⟩ := List.mem_map.mp (OrderedMap.mem_ofList isEntry)
  exact ⟨Number.readsBack _, Number.toInteger_ofInt_toInteger _⟩

/-- What stands behind a tag can be written again if the elements in it can. -/
theorem portable_payload {children : Place → Step (Elements × Place)} {tag : String}
    {place behind : Place} {value : Value}
    (writable : ∀ {place elements behind}, children place = .ok (elements, behind) →
      Elements.Writable elements)
    (read : payload children tag place = .ok (value, behind)) (free : value.dateFree = true) :
    value.Portable := by
  unfold payload at read
  -- Each tag makes a value of its own kind of what was read behind it.
  split at read
  case h_1 =>
    obtain ⟨⟨text, next⟩, _, read⟩ := ok_of_bind read
    dsimp only at read
    split at read <;> cases read
    exact .number (Number.readsBack _)
  case h_2 =>
    obtain ⟨⟨text, next⟩, _, read⟩ := ok_of_bind read
    cases read
    exact .string text
  case h_3 =>
    obtain ⟨⟨bytes, next⟩, _, read⟩ := ok_of_bind read
    cases read
    exact .bytes bytes
  case h_4 =>
    -- Moments are left out.
    obtain ⟨⟨text, next⟩, _, read⟩ := ok_of_bind read
    dsimp only at read
    split at read <;> cases read
    cases free
  case h_5 =>
    obtain ⟨⟨elements, next⟩, found, read⟩ := ok_of_bind read
    cases read
    -- The names of array elements are dropped.
    have itemsFree : dateFreeItems (elements.map (·.2)) = true := free
    refine .array fun item member => ?_
    have itemFree := dateFreeItems_iff.mp itemsFree item member
    obtain ⟨element, isElement, rfl⟩ := List.mem_map.mp member
    exact writable found element isElement itemFree
  case h_6 =>
    obtain ⟨⟨elements, next⟩, found, read⟩ := ok_of_bind read
    cases read
    exact portable_mapOf (writable found) free
  case h_7 =>
    obtain ⟨⟨name, entries⟩, _, read⟩ := ok_of_bind read
    obtain ⟨⟨elements, next⟩, _, read⟩ := ok_of_bind read
    cases read
    exact portable_enumerationOf name elements
  case h_8 =>
    obtain ⟨⟨typeTag, fields⟩, _, read⟩ := ok_of_bind read
    obtain ⟨⟨elements, next⟩, found, read⟩ := ok_of_bind read
    cases read
    exact portable_objectOf typeTag (writable found) free
  case h_9 => cases read; exact .null
  case h_10 => cases read

/-- The value that a tagged text denotes can be written again, unless it holds a moment. -/
theorem portable_toValue {text : String} {value : Value} (read : toValue text = .ok value) :
    value.dateFree = true → value.Portable :=
  toValue_induction (motive := fun value => value.dateFree = true → value.Portable) portable_payload read

/-- A value that can be held by tagged text has a text that denotes it. -/
theorem exists_text (fieldsOf : Nat → List (String × Value)) (objects : Nat) {value : Value}
    (portable : value.Portable) :
    ∃ text, ofValue? fieldsOf objects value = some text ∧ toValue text = .ok value.asWritten := by
  obtain ⟨tag, content, three, written, reads⟩ := roundTrips_of_portable portable
  -- The text is the one element that is written for the value, without a name.
  obtain ⟨_, whole⟩ : IsElement (element none tag content) (none, value.asWritten) :=
    isElement_element three reads
  have read := whole ((element none tag content).length + 1) [] (Nat.le_succ _) 0
  rw [List.append_nil] at read
  refine ⟨String.ofList (element none tag content), by rw [ofValue?, written]; rfl, ?_⟩
  rw [toValue, String.toList_ofList, trim_element, readWhole, read]
  rfl

end Tagged

end ScriptEngine

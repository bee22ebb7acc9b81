import ScriptEngine.Eval.Function
import ScriptEngine.Proofs.Value.Clean
import ScriptEngine.Proofs.Value.Commuting

/-! Values whose properties are all stored: nothing is computed by a script or provided by the host. -/

namespace ScriptEngine

/-- All properties of a value and of what it holds are stored ones: none is computed or provided by the
host, collections are in step, and a handle stands for one of so many instances, which have the fields. -/
inductive Value.Stored (instances : Nat) : Value → Prop
  | handle {value : Value} {typeTag : String} {id : Nat}
      (data : value.data = .object ⟨typeTag, .scripted id⟩) (lives : id < instances)
      (bare : ∀ name, value.field? name = none) (plain : ∀ name, value.computed.get? name = none) :
    Stored instances value
  | other {value : Value} (data : ∀ handle, value.data ≠ .object handle)
      (inStep : ∀ collection, value.data = .collection collection → collection.InStep)
      (items : ∀ collection, value.data = .collection collection →
        ∀ item ∈ collection.items, Stored instances item)
      (fields : ∀ name content, value.field? name = some content → Stored instances content)
      (plain : ∀ name, value.computed.get? name = none) : Stored instances value

/-- All elements of a collection in step are values whose properties are stored. -/
structure Collection.Stored (instances : Nat) (collection : Collection Value) : Prop where
  inStep : collection.InStep
  items : ∀ item ∈ collection.items, item.Stored instances

/-- All fields of instances are values whose properties are stored. -/
def Heap.Stored (heap : Heap) : Prop :=
  ∀ id name content, (heap.fields id).get? name = some content → content.Stored heap.instances.size

variable {instances : Nat}

namespace Value

variable {value content found : Value} {name : String} {collection : Collection Value}

/-- A value that is neither an object nor a collection, and has no fields, is stored as it is. -/
theorem stored_ofData {data : Data} (single : ∀ collection, data ≠ .collection collection)
    (noObject : ∀ handle, data ≠ .object handle) : (ofData data).Stored instances :=
  .other noObject (fun collection same => absurd same (single collection))
    (fun collection same => absurd same (single collection)) (fun _ _ found => nomatch found) fun _ => rfl

@[simp] theorem stored_undefined : undefined.Stored instances := stored_ofData (by simp) (by simp)

@[simp] theorem stored_null : null.Stored instances := stored_ofData (by simp) (by simp)

@[simp] theorem stored_number (number : Float) : (Value.number number).Stored instances :=
  stored_ofData (by simp) (by simp)

@[simp] theorem stored_ofNat (count : Nat) : (ofNat count).Stored instances := stored_number _

@[simp] theorem stored_string (text : String) : (string text).Stored instances :=
  stored_ofData (by simp) (by simp)

/-- A collection of stored values is one. -/
theorem stored_collection (stored : collection.Stored instances) :
    (Value.collection collection).Stored instances :=
  .other (fun _ same => nomatch same) (fun _ same => by cases same; exact stored.inStep)
    (fun _ same => by cases same; exact stored.items) (fun _ _ found => nomatch found) fun _ => rfl

/-- An array of stored values is one. -/
theorem stored_array {items : List Value} (stored : ∀ item ∈ items, item.Stored instances) :
    (array items).Stored instances :=
  stored_collection ⟨(Collection.Origin.holds (.array items)).inStep, stored⟩

/-- An array of what a function makes is stored if that always is. -/
theorem stored_array_map {α : Type} {f : α → Value} (stored : ∀ a, (f a).Stored instances)
    (list : List α) : (array (list.map f)).Stored instances :=
  stored_array (by simp [stored])

/-- What may be there is stored if it is and what stands for it is. -/
theorem stored_getD {first : Option Value} {other : Value}
    (there : ∀ item, first = some item → item.Stored instances) (stored : other.Stored instances) :
    (first.getD other).Stored instances := by
  cases first with
  | none => exact stored
  | some item => exact there item rfl

/-- The elements of a stored collection are stored. -/
theorem Stored.elements (stored : value.Stored instances)
    (data : value.data = .collection collection) : collection.Stored instances := by
  cases stored with
  | handle object => cases object.symm.trans data
  | other _ inStep items => exact ⟨inStep collection data, items collection data⟩

/-- The ad-hoc fields of a stored value are stored. -/
theorem Stored.field (stored : value.Stored instances) (found : value.field? name = some content) :
    content.Stored instances := by
  cases stored with
  | handle _ _ bare => cases (bare name).symm.trans found
  | other _ _ _ fields => exact fields name content found

/-- A stored value has no accessors. -/
theorem Stored.plain (stored : value.Stored instances) (name : String) :
    value.getter? name = none ∧ value.setter? name = none := by
  have plain : value.computed.get? name = none := by
    cases stored <;> rename_i plain <;> exact plain name
  unfold getter? setter?
  rw [plain]
  exact ⟨rfl, rfl⟩

/-- A property that a stored value has without any declaration is stored. -/
theorem Stored.builtinProperty (stored : value.Stored instances)
    (read : value.builtinProperty? name = some found) : found.Stored instances := by
  unfold builtinProperty? at read
  split at read
  -- What is computed from a value is a number, a text, or an array of these.
  case h_1 | h_2 | h_15 | h_16 | h_17 | h_18 => cases read; exact stored_string _
  case h_3 | h_8 => cases read; exact stored_array_map stored_string _
  case h_4 | h_5 =>
    obtain ⟨size, _, rfl⟩ := Option.map_eq_some_iff.mp read
    exact stored_ofNat size
  case h_6 =>
    obtain ⟨size, _, rfl⟩ := Option.map_eq_some_iff.mp read
    exact stored_number _
  case h_7 =>
    split at read <;> cases read
    · exact stored_array_map stored_string _
    · exact stored_array_map stored_ofNat _
  case h_10 => cases read; exact stored_array_map (fun _ => stored_number _) _
  case h_13 | h_14 =>
    cases read
    refine stored_getD (fun item first => ?_) stored_undefined
    obtain ⟨c, _, rfl⟩ := Option.map_eq_some_iff.mp first
    exact stored_string _
  -- What is taken from a collection is one of its elements or an array of some.
  case h_9 data => cases read; exact stored_array (stored.elements data).items
  case h_11 data =>
    cases read
    exact stored_getD (fun item first => (stored.elements data).items item (List.mem_of_head? first))
      stored_undefined
  case h_12 data =>
    cases read
    exact stored_getD (fun item last => (stored.elements data).items item (List.mem_of_getLast? last))
      stored_undefined
  case h_19 data =>
    cases read
    exact stored_array fun item member => (stored.elements data).items item (List.mem_reverse.mp member)
  case h_20 data =>
    cases read
    exact stored_array fun item member => (stored.elements data).items item (mem_of_mem_sort member)
  case h_21 => cases read

/-- An object has no object as a property without any declaration. -/
theorem builtinProperty_object {handle : ObjectHandle} (data : value.data = .object handle)
    (read : value.builtinProperty? name = some found) : found.instanceId? = none := by
  unfold builtinProperty? at read
  rw [data] at read
  split at read
  case h_1 | h_2 | h_3 => cases read; rfl
  case h_4 | h_5 | h_6 =>
    obtain ⟨size, _, rfl⟩ := Option.map_eq_some_iff.mp read
    rfl
  case h_21 => cases read
  -- The others are properties of texts, enumerations and collections.
  all_goals
    rename_i other
    cases other

/-- A stored value stays one with a stored field. -/
theorem Stored.setField (stored : value.Stored instances)
    (noObject : ∀ handle, value.data ≠ .object handle)
    (name : String) (new : content.Stored instances) : (value.setField name content).Stored instances := by
  cases stored with
  | handle object => exact absurd object (noObject _)
  | other data inStep items fields plain =>
    -- No instance is written, so the value keeps everything but the one field.
    refine .other data inStep items (fun other field found => ?_) plain
    unfold Value.setField Value.field? at found
    by_cases same : other = name
    · subst same
      rw [OrderedMap.get?_insert_self] at found
      cases found
      exact new
    · rw [OrderedMap.get?_insert_of_ne _ _ same] at found
      exact fields other field found

/-- A stored collection stays one with other elements that are. -/
theorem Stored.withElements (stored : value.Stored instances)
    (noObject : ∀ handle, value.data ≠ .object handle)
    (elements : collection.Stored instances) :
    (value.withData (.collection collection)).Stored instances := by
  cases stored with
  | handle object => exact absurd object (noObject _)
  | other _ _ _ fields plain =>
    exact .other (fun _ same => nomatch same) (fun _ same => by cases same; exact elements.inStep)
      (fun _ same => by cases same; exact elements.items) fields plain

/-- The collection that a value is, is its data. -/
theorem data_of_asCollection? (found : value.asCollection? = some collection) :
    value.data = .collection collection := by
  unfold asCollection? at found
  split at found
  case h_1 data =>
    cases found
    exact data
  case h_2 => cases found

/-- What is written below a stored value is a stored value with a stored collection. -/
theorem Stored.indexed {index : Value} (stored : value.Stored instances)
    (found : value.indexed index = .ok collection) :
    (value.indexable index).Stored instances ∧ (value.indexable index).data = .collection collection ∧
      collection.Stored instances := by
  -- What nothing is replaced by is an empty collection.
  have target : (value.indexable index).Stored instances := by
    unfold indexable
    split
    · split
      · exact stored_collection ⟨(Collection.Origin.holds .map).inStep, by simp [Collection.emptyMap]⟩
      · exact stored_array (by simp)
    · exact stored
  -- And it is the collection that was found.
  have data : (value.indexable index).data = .collection collection := by
    unfold Value.indexed at found
    split at found
    case h_1 same =>
      cases found
      exact data_of_asCollection? same
    case h_2 => cases found
  exact ⟨target, data, target.elements data⟩

end Value

namespace Collection

variable {collection written : Collection Value} {value : Value}

/-- What is selected in a stored collection is stored. -/
theorem Stored.of (stored : collection.Stored instances) (chosen : Selector) :
    (chosen.of collection).Stored instances := by
  have fromPosition : ∀ place, ((collection.get? place).getD .null).Stored instances := fun place =>
    Value.stored_getD (fun item found => stored.items item (List.mem_of_getElem? found))
      Value.stored_null
  cases chosen with
  | position place => exact fromPosition place
  | key name =>
    rw [Selector.of, Collection.getKey?]
    cases collection.position? name with
    | none => exact Value.stored_null
    | some place => exact fromPosition place

/-- A stored collection stays one if a stored value is put in it. -/
theorem Stored.put (stored : collection.Stored instances) {chosen : Selector}
    (put : chosen.put collection value = .ok written) (new : value.Stored instances) :
    written.Stored instances := by
  cases chosen with
  | key name =>
    cases put
    refine ⟨(stored.inStep.holds.insertKey name value).inStep, fun item member => ?_⟩
    rcases Collection.mem_insertKey member with old | rfl
    · exact stored.items item old
    · exact new
  | position place =>
    -- A write beyond the end also fills the gap with nulls.
    refine ⟨stored.inStep.setAt put, fun item member => ?_⟩
    rcases Collection.mem_setAt put member with old | rfl | rfl
    · exact stored.items item old
    · exact new
    · exact Value.stored_null

end Collection

end ScriptEngine

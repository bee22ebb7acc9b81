import ScriptEngine.Proofs.Collection.Edits
import ScriptEngine.Proofs.Tagged.Reading

/-! Tagged text is read back as the value that it was written from, at every level of nesting and with
every key where it was recorded. -/

namespace ScriptEngine

namespace Number

/-- A number as its text gives it back: minus zero loses its sign. -/
def asWritten (x : Float) : Float := if x.toBits = (-0.0 : Float).toBits then 0 else x

/-- The text of a number denotes the number. -/
def ReadsBack (x : Float) : Prop := parse? (format x).toList = some (asWritten x)

/-- A number is determined by its bits. -/
theorem eq_of_toBits {x y : Float} (same : x.toBits = y.toBits) : x = y := by
  obtain ⟨⟨_, _⟩⟩ := x
  obtain ⟨⟨_, _⟩⟩ := y
  cases same
  rfl

/-- Minus zero has the same whole part as zero. -/
theorem toInteger_asWritten (x : Float) : toInteger (asWritten x) = toInteger x := by
  unfold asWritten
  split
  case isTrue same =>
    rw [eq_of_toBits same]
    decide
  case isFalse => rfl

end Number

mutual

/-- A value as its tagged text gives it back. -/
def Value.asWritten : Value → Value
  | ⟨data, fields, computed⟩ => ⟨data.asWritten, fields, computed⟩

/-- What a value is as its tagged text gives it back. -/
def Data.asWritten : Data → Data
  | .number number => .number (Number.asWritten number)
  | .collection ⟨items, index⟩ => .collection ⟨asWrittenItems items, index⟩
  | data => data

/-- Elements as their tagged text gives them back. -/
def asWrittenItems : List Value → List Value
  | [] => []
  | item :: rest => item.asWritten :: asWrittenItems rest

end

/-- Each element is given back by itself. -/
theorem asWrittenItems_eq (items : List Value) : asWrittenItems items = items.map Value.asWritten := by
  induction items with
  | nil => rfl
  | cons item rest ih => rw [asWrittenItems, ih, List.map_cons]

/-- Values without ad-hoc fields of the kinds that tagged text can hold. Their numbers are read back
from their own text, their maps are in step, and the names of their enumerations are distinct. -/
inductive Value.Portable : Value → Prop where
  | null : Portable .null
  | number {number : Float} (reads : Number.ReadsBack number) : Portable (.number number)
  | string (text : String) : Portable (.string text)
  | bytes (bytes : List UInt8) : Portable (.ofData (.bytes bytes))
  | array {items : List Value} (portable : ∀ item ∈ items, Portable item) : Portable (.array items)
  | map {collection : Collection Value} (isMap : collection.isMap = true)
      (inStep : collection.InStep) (portable : ∀ item ∈ collection.items, Portable item) :
    Portable (.collection collection)
  | enumeration {enumeration : Enumeration} (distinct : enumeration.entries.names.Nodup)
      (exact : ∀ value ∈ enumeration.entries.values,
        Number.ReadsBack (Float.ofInt value) ∧ Value.toInteger (Float.ofInt value) = value) :
    Portable (.ofData (.enumeration enumeration))

namespace Collection

variable {α : Type}

/-- Maps that hold the same entries are the same. -/
theorem Holds.unique {left right : Collection α} {held : List (Entry α)} (leftHolds : left.Holds held)
    (rightHolds : right.Holds held) (leftMap : left.isMap = true) (rightMap : right.isMap = true) :
    left = right := by
  obtain ⟨items, index⟩ := left
  obtain ⟨others, other⟩ := right
  obtain ⟨index, rfl⟩ := Option.isSome_iff_exists.mp leftMap
  obtain ⟨other, rfl⟩ := Option.isSome_iff_exists.mp rightMap
  -- The entries determine the items and the positions of the keys.
  have sameItems : items = others := leftHolds.items.trans rightHolds.items.symm
  have sameIndex : index = other := leftHolds.index.trans rightHolds.index.symm
  rw [sameItems, sameIndex]

end Collection

namespace Tagged

open Collection (Entry Holds)

/-- A map that is written with a key is a map. -/
theorem isMap_insertKey {collection : Collection Value} (isMap : collection.isMap = true)
    (key : String) (value : Value) : (collection.insertKey key value).isMap = true := by
  unfold Collection.insertKey
  split
  · exact isMap
  · rfl

/-- Elements that are read into a map go behind those that it holds. -/
theorem holds_foldl {elements : Elements} {collection : Collection Value} {held : Elements}
    (holds : collection.Holds held) (isMap : collection.isMap = true)
    (distinct : ((held ++ elements).filterMap (·.1)).Nodup) :
    let final := elements.foldl (fun collection (name, value) =>
      match name with
      | some key => collection.insertKey key value
      | none => collection.push value) collection
    final.Holds (held ++ elements) ∧ final.isMap = true := by
  -- The induction is on what is still to come; what is held grows at its end.
  induction elements generalizing collection held with
  | nil =>
    rw [List.append_nil]
    exact ⟨holds, isMap⟩
  | cons element rest ih =>
    obtain ⟨name, value⟩ := element
    have behind : held ++ (name, value) :: rest = held ++ [(name, value)] ++ rest := by simp
    rw [behind] at distinct ⊢
    cases name with
    | none => exact ih (holds.push value) isMap distinct
    | some key =>
      -- The key is new, so that its element becomes the last one.
      have absent : ¬ (held.any (·.1 == some key)) = true := by
        intro present
        obtain ⟨entry, isHeld, named⟩ := List.any_eq_true.mp present
        have before : key ∈ held.filterMap (·.1) :=
          List.mem_filterMap.mpr ⟨entry, isHeld, by simpa using named⟩
        rw [List.append_assoc, List.filterMap_append] at distinct
        exact (List.nodup_append.mp distinct).2.2 _ before _ (by simp) rfl
      have last := holds.insertKey key value
      rw [Collection.Entries.insertKey, if_neg absent] at last
      exact ih last (isMap_insertKey isMap key value) distinct

/-- Elements with distinct names make a map that holds them in order. -/
theorem holds_mapOf {elements : Elements} (distinct : (elements.filterMap (·.1)).Nodup) :
    (mapOf elements).Holds elements ∧ (mapOf elements).isMap = true :=
  holds_foldl (Collection.Origin.holds .map) rfl distinct

/-- A map that is in step is made again from its elements with their keys. -/
theorem mapOf_entries {collection : Collection Value} (isMap : collection.isMap = true)
    (inStep : collection.InStep) : mapOf collection.entries = collection := by
  have holds := inStep.holds
  obtain ⟨made, madeMap⟩ := holds_mapOf holds.distinct
  exact made.unique holds madeMap isMap

/-- The text of an element is read back as its name and its value. -/
structure IsElement (text : List Char) (result : Option String × Value) : Prop where
  opens : text.head? = some '<'
  reads : ∀ fuel rest, text.length ≤ fuel → Reads (readElement fuel) text result rest

/-- An element whose content is read back is read back. -/
theorem isElement_element {name : Option String} {tag : String} {content : List Char} {value : Value}
    (three : tag.toList.length = 3)
    (inner : ∀ fuel rest, content.length + 1 ≤ fuel →
      Reads (payload (readElements fuel) tag) content value ('>' :: rest)) :
    IsElement (element name tag content) (name, value) where
  opens := rfl
  reads := by
    intro fuel rest enough
    have length : content.length + 7 ≤ (element name tag content).length := by
      simp only [element, List.length_append, List.length_cons, List.length_nil, three]
      omega
    cases fuel with
    | zero => omega
    | succ fuel => exact reads_element three (inner fuel rest (by omega))

/-- The first of several elements is read, and then the others. -/
theorem readElements_cons {fuel offset : Nat} {tail : List Char} {result : Option String × Value}
    {next behind : Place} {others : Elements}
    (first : readElement fuel ⟨offset, '<' :: tail⟩ = .ok (result, next))
    (later : readElements fuel next = .ok (others, behind)) :
    readElements (fuel + 1) ⟨offset, '<' :: tail⟩ = .ok (result :: others, behind) := by
  have opens : (Place.mk offset ('<' :: tail)).rest.head? = some '<' := rfl
  rw [readElements, if_pos opens, first, ok_bind]
  dsimp only
  rw [later]
  rfl

/-- Elements one behind the other are read back up to what is none. -/
theorem reads_elements {parts : List (List Char × (Option String × Value))}
    (elements : ∀ part ∈ parts, IsElement part.1 part.2) {fuel : Nat}
    (enough : (parts.flatMap (·.1)).length + 1 ≤ fuel) {rest : List Char}
    (ends : rest.head? ≠ some '<') :
    Reads (readElements fuel) (parts.flatMap (·.1)) (parts.map (·.2)) rest := by
  -- The induction is on the elements, each of which takes some of the fuel.
  induction parts generalizing fuel with
  | nil =>
    intro offset
    cases fuel with
    | zero => rfl
    | succ fuel =>
      show readElements (fuel + 1) ⟨offset, rest⟩ = _
      rw [readElements, if_neg ends]
      rfl
  | cons part others ih =>
    intro offset
    obtain ⟨text, result⟩ := part
    have first := elements (text, result) List.mem_cons_self
    -- The bracket in front shows that another element follows.
    obtain ⟨tail, rfl⟩ := List.head?_eq_some_iff.mp first.opens
    simp only [List.flatMap_cons, List.length_append, List.length_cons] at enough
    cases fuel with
    | zero => omega
    | succ fuel =>
      have readFirst := first.reads fuel (others.flatMap (·.1) ++ rest)
        (by simp only [List.length_cons]; omega) offset
      have readOthers := ih (fun part member => elements part (List.mem_cons_of_mem _ member))
        (show (others.flatMap (·.1)).length + 1 ≤ fuel by omega) (offset + ('<' :: tail).length)
      rw [List.flatMap_cons, List.append_assoc, List.length_append, ← Nat.add_assoc]
      exact readElements_cons readFirst readOthers

/-- The tagged text of a value, under whatever name, is read back as the value. -/
def RoundTrips (value : Value) : Prop :=
  ∃ tag content, tag.toList.length = 3 ∧
    (∀ objectBody name, write objectBody name value = some (element name tag content)) ∧
    ∀ fuel rest, content.length + 1 ≤ fuel →
      Reads (payload (readElements fuel) tag) content value.asWritten ('>' :: rest)

/-- The elements of a collection are read back with the names that were recorded for them. -/
theorem items_elements {items : List Value} (roundTrips : ∀ item ∈ items, RoundTrips item)
    (index : Option (List (String × Nat))) (position : Nat) :
    ∃ parts : List (List Char × (Option String × Value)),
      (∀ part ∈ parts, IsElement part.1 part.2) ∧
      (∀ objectBody, writeItems objectBody index position items = some (parts.flatMap (·.1))) ∧
      parts.map (·.2) = items.mapIdx fun place item =>
        (itemName index (position + place), item.asWritten) := by
  induction items generalizing position with
  | nil => exact ⟨[], by simp, fun _ => rfl, rfl⟩
  | cons item rest ih =>
    obtain ⟨tag, content, three, written, reads⟩ := roundTrips item List.mem_cons_self
    obtain ⟨parts, elements, texts, results⟩ :=
      ih (fun other member => roundTrips other (List.mem_cons_of_mem _ member)) (position + 1)
    -- The name of an item is looked up by its position in the whole collection.
    let name := itemName index position
    refine ⟨(element name tag content, (name, item.asWritten)) :: parts, ?_, ?_, ?_⟩
    · intro part member
      rcases List.mem_cons.mp member with rfl | member
      · exact isElement_element three reads
      · exact elements part member
    · intro objectBody
      rw [writeItems, written, texts]
      rfl
    · rw [List.map_cons, results, List.mapIdx_cons]
      simp only [Nat.add_zero, List.cons.injEq]
      refine ⟨rfl, ?_⟩
      congr 1
      funext place other
      rw [show position + 1 + place = position + (place + 1) by omega]

variable {children : Place → Step (Elements × Place)} {rest : List Char}

/-- The end of an element stops the reading of text. -/
theorem closing : ∀ c ∈ ['>'], isDelimiter c = true ∧ c ≠ '\\' := by simp [isDelimiter]

/-- A number is read back from its text. -/
theorem reads_number {number : Float} (reads : Number.ReadsBack number) :
    Reads (payload children "NUM") (escape (Number.format number).toList)
      (.number (Number.asWritten number)) ('>' :: rest) := by
  intro offset
  have read : (Place.mk offset (escape (Number.format number).toList ++ '>' :: rest)).text ['>'] = _ :=
    reads_text (Number.format number) closing List.mem_cons_self offset
  unfold payload
  dsimp only
  rw [read, ok_bind]
  dsimp only
  rw [reads]
  rfl

/-- A string is read back from its text. -/
theorem reads_string (text : String) :
    Reads (payload children "STR") (escape text.toList) (.string text) ('>' :: rest) := by
  intro offset
  have read : (Place.mk offset (escape text.toList ++ '>' :: rest)).text ['>'] = _ :=
    reads_text text closing List.mem_cons_self offset
  unfold payload
  dsimp only
  rw [read]
  rfl

/-- Bytes are read back from their digits. -/
theorem reads_bytes (bytes : List UInt8) :
    Reads (payload children "BYT") (hexText bytes).toList (.ofData (.bytes bytes)) ('>' :: rest) := by
  intro offset
  unfold payload
  dsimp only
  rw [reads_hex bytes offset]
  rfl

/-- An array is read back from its elements. -/
theorem reads_array {text : List Char} {elements : Elements}
    (reads : Reads children text elements ('>' :: rest)) :
    Reads (payload children "ARR") text (.array (elements.map (·.2))) ('>' :: rest) := by
  intro offset
  unfold payload
  dsimp only
  rw [reads offset]
  rfl

/-- A map is read back from its elements. -/
theorem reads_map {text : List Char} {elements : Elements}
    (reads : Reads children text elements ('>' :: rest)) :
    Reads (payload children "MAP") text (.collection (mapOf elements)) ('>' :: rest) := by
  intro offset
  unfold payload
  dsimp only
  rw [reads offset]
  rfl

/-- An enumeration is read back from its name and the elements of its entries, the first of which ends
the name. -/
theorem reads_enumeration (name : String) {text : List Char} {elements : Elements}
    (opens : text.head? = none ∨ text.head? = some '<')
    (reads : Reads children text elements ('>' :: rest)) :
    Reads (payload children "ENU") (escape name.toList ++ text)
      (.ofData (.enumeration (enumerationOf name elements))) ('>' :: rest) := by
  intro offset
  have delimiters : ∀ c ∈ ['<', '>'], isDelimiter c = true ∧ c ≠ '\\' := by simp [isDelimiter]
  -- The name ends in front of the first entry, or else in front of the end of the enumeration.
  obtain ⟨stop, behind, stops, same⟩ : ∃ stop behind, stop ∈ ['<', '>'] ∧
      text ++ '>' :: rest = stop :: behind := by
    cases text with
    | nil => exact ⟨'>', rest, by simp, rfl⟩
    | cons c others =>
      rcases opens with absent | first
      · cases absent
      · cases first
        exact ⟨'<', others ++ '>' :: rest, by simp, rfl⟩
  have read : (Place.mk offset (escape name.toList ++ stop :: behind)).text ['<', '>'] = _ :=
    reads_text name delimiters stops offset
  have children := reads (offset + (escape name.toList).length)
  rw [same] at children
  rw [List.append_assoc, same, List.length_append, ← Nat.add_assoc]
  unfold payload
  dsimp only
  rw [read, ok_bind]
  dsimp only
  rw [children]
  rfl

/-- An array is read back if its elements are. -/
theorem roundTrips_array {items : List Value} (roundTrips : ∀ item ∈ items, RoundTrips item) :
    RoundTrips (.array items) := by
  obtain ⟨parts, elements, texts, results⟩ := items_elements roundTrips none 0
  -- An array keeps the values alone, as its elements have no names.
  have values : (parts.map (·.2)).map (·.2) = items.map Value.asWritten := by
    rw [results]
    apply List.ext_getElem <;> simp
  refine ⟨"ARR", parts.flatMap (·.1), rfl, ?_, ?_⟩
  · intro objectBody name
    show (writeItems objectBody none 0 items).map (element name "ARR") = _
    rw [texts]
    rfl
  · intro fuel rest enough
    have read := reads_array (reads_elements elements enough (show ('>' :: rest).head? ≠ some '<' by simp))
    rw [values, ← asWrittenItems_eq] at read
    exact read

/-- A map is read back if its elements are: each key comes back at its position, since the keys stand
in the order of the positions. -/
theorem roundTrips_map {collection : Collection Value} (isMap : collection.isMap = true)
    (inStep : collection.InStep) (roundTrips : ∀ item ∈ collection.items, RoundTrips item) :
    RoundTrips (.collection collection) := by
  obtain ⟨items, index⟩ := collection
  obtain ⟨parts, elements, texts, results⟩ := items_elements roundTrips index 0
  let back : Collection Value := ⟨items.map Value.asWritten, index⟩
  have sameSize : back.size = Collection.size ⟨items, index⟩ := List.length_map Value.asWritten
  have backInStep : back.InStep :=
    ⟨inStep.ascending, fun entry member => sameSize ▸ inStep.bounded entry member, inStep.distinct⟩
  have backMap : back.isMap = true := isMap
  -- What was written with each value is the key that the map holds for it.
  have entries : parts.map (·.2) = back.entries := by
    rw [results]
    apply List.ext_getElem
    · simp [Collection.entries, back]
    · intro place _ _
      simp only [Collection.entries, back, List.getElem_mapIdx, List.getElem_map, Nat.zero_add]
      rfl
  refine ⟨"MAP", parts.flatMap (·.1), rfl, ?_, ?_⟩
  · intro objectBody name
    show (writeItems objectBody index 0 items).map
      (element name (if index.isSome then "MAP" else "ARR")) = _
    rw [texts, show index.isSome = true from isMap]
    rfl
  · intro fuel rest enough
    have read := reads_map (reads_elements elements enough (show ('>' :: rest).head? ≠ some '<' by simp))
    rw [entries, mapOf_entries backMap backInStep] at read
    show Reads _ _ (Value.collection ⟨asWrittenItems items, index⟩) _
    rw [asWrittenItems_eq]
    exact read

/-- The integer of each entry is that of the number that is read for it. -/
theorem enumerationOf_numbers {name : String} {entries : OrderedMap Int}
    (distinct : entries.names.Nodup)
    (exact : ∀ value ∈ entries.values, Value.toInteger (Float.ofInt value) = value) :
    enumerationOf name (entries.entries.map fun entry =>
      (some entry.1, .number (Number.asWritten (Float.ofInt entry.2)))) = ⟨name, entries⟩ := by
  have integers : (entries.entries.map fun entry : String × Int => ((some entry.1 : Option String),
      Value.number (Number.asWritten (Float.ofInt entry.2)))).map (fun part =>
        (part.1.getD "", Value.toInteger part.2.toNumber)) = entries.entries := by
    rw [List.map_map]
    refine (List.map_congr_left fun entry member => ?_).trans (List.map_id _)
    have known := exact entry.2 (List.mem_map_of_mem (f := (·.2)) member)
    show (entry.1, Value.toInteger (Number.asWritten (Float.ofInt entry.2))) = entry
    rw [Value.toInteger, Number.toInteger_asWritten]
    exact Prod.ext rfl known
  rw [enumerationOf, integers, OrderedMap.ofList_entries distinct]

/-- An enumeration is read back. -/
theorem roundTrips_enumeration {enumeration : Enumeration}
    (distinct : enumeration.entries.names.Nodup)
    (exact : ∀ value ∈ enumeration.entries.values,
      Number.ReadsBack (Float.ofInt value) ∧ Value.toInteger (Float.ofInt value) = value) :
    RoundTrips (.ofData (.enumeration enumeration)) := by
  obtain ⟨name, entries⟩ := enumeration
  let parts : List (List Char × (Option String × Value)) := entries.entries.map fun entry =>
    (element (some entry.1) "NUM" (escape (Number.format (Float.ofInt entry.2)).toList),
      (some entry.1, .number (Number.asWritten (Float.ofInt entry.2))))
  have elements : ∀ part ∈ parts, IsElement part.1 part.2 := by
    intro part member
    obtain ⟨⟨entry, value⟩, isEntry, rfl⟩ := List.mem_map.mp member
    have known := exact value (List.mem_map_of_mem (f := (·.2)) isEntry)
    exact isElement_element rfl fun _ _ _ => reads_number known.1
  have back : enumerationOf name (parts.map (·.2)) = ⟨name, entries⟩ := by
    rw [List.map_map]
    exact enumerationOf_numbers distinct fun value member => (exact value member).2
  have texts : parts.flatMap (·.1) = entries.entries.flatMap fun entry =>
      element (some entry.1) "NUM" (escape (Number.format (Float.ofInt entry.2)).toList) := by
    rw [List.flatMap_map]
  -- The name of the enumeration ends where the first entry starts.
  have opens : (parts.flatMap (·.1)).head? = none ∨ (parts.flatMap (·.1)).head? = some '<' := by
    rw [texts]
    cases entries.entries with
    | nil => exact .inl rfl
    | cons => exact .inr rfl
  refine ⟨"ENU", escape name.toList ++ parts.flatMap (·.1), rfl, ?_, ?_⟩
  · intro objectBody written
    rw [texts]
    rfl
  · intro fuel rest enough
    rw [List.length_append] at enough
    have within : (parts.flatMap (·.1)).length + 1 ≤ fuel := by omega
    have read := reads_enumeration name opens
      (reads_elements elements within (show ('>' :: rest).head? ≠ some '<' by simp))
    rw [back] at read
    exact read

/-- Each portable value is read back under whatever name. -/
theorem roundTrips_of_portable {value : Value} (portable : value.Portable) : RoundTrips value := by
  -- The induction is on the value: what is inside is read back before what it is in.
  induction portable with
  | null => exact ⟨"NON", [], rfl, fun _ _ => rfl, fun _ _ _ _ => rfl⟩
  | @number number reads =>
    exact ⟨"NUM", escape (Number.format number).toList, rfl, fun _ _ => rfl,
      fun _ _ _ => reads_number reads⟩
  | string text => exact ⟨"STR", escape text.toList, rfl, fun _ _ => rfl, fun _ _ _ => reads_string text⟩
  | bytes bytes =>
    exact ⟨"BYT", (hexText bytes).toList, rfl, fun _ _ => rfl, fun _ _ _ => reads_bytes bytes⟩
  | array _ ih => exact roundTrips_array ih
  | map isMap inStep _ ih => exact roundTrips_map isMap inStep ih
  | enumeration distinct exact_ => exact roundTrips_enumeration distinct exact_

/-- Text that starts and ends with a delimiter is not trimmed. -/
theorem trim_element (name : Option String) (tag : String) (content : List Char) :
    Text.trim (element name tag content) = element name tag content := by
  have opens : Text.isBlank '<' = false := by decide
  have closes : Text.isBlank '>' = false := by decide
  have start : Text.trimStart (element name tag content) = element name tag content := by
    simp [Text.trimStart, element, opens]
  rw [Text.trim, start]
  simp [Text.trimEnd, element, closes]

/-- Each portable value has a tagged text, which denotes the value: of the same kinds at every level,
with the same elements in order and the same keys at their positions, the same text and the same
numbers. -/
theorem toValue_ofValue (fieldsOf : Nat → List (String × Value)) (objects : Nat) {value : Value}
    (portable : value.Portable) :
    ∃ text, ofValue? fieldsOf objects value = some text ∧ toValue text = .ok value.asWritten := by
  obtain ⟨tag, content, three, written, reads⟩ := roundTrips_of_portable portable
  refine ⟨String.ofList (element none tag content), ?_, ?_⟩
  · rw [ofValue?, written]
    rfl
  · have isElement : IsElement (element none tag content) (none, value.asWritten) :=
      isElement_element three reads
    -- Nothing is left behind the element.
    have whole := isElement.reads ((element none tag content).length + 1) [] (Nat.le_succ _) 0
    rw [List.append_nil] at whole
    rw [toValue, String.toList_ofList, trim_element, readWhole, whole]
    rfl

/-- A map with the empty key, a key of delimiters, and elements without keys between and behind them. -/
def unevenMap : Collection Value :=
  Collection.Edit.run .null (Collection.Origin.start .map)
    [.insertKey "" (.string "a:b\\"), .insertKey "<k>" (.number 0.1), .insertAt 1 (.number (-0.0)),
      .push (.ofData (.bytes [255, 0]))]

/-- An enumeration with a negative entry under the empty name. -/
def unevenEnumeration : Enumeration := ⟨"C:D", .ofList [("red", 1), ("", -3)]⟩

/-- The map can be held by tagged text. -/
theorem unevenMap_portable : (Value.collection unevenMap).Portable := by
  have inStep : unevenMap.InStep := ((Collection.Origin.holds .map).run _ _).inStep
  refine .map rfl inStep fun item member => ?_
  have items : unevenMap.items = [.string "a:b\\", .number (-0.0), .number 0.1,
      .ofData (.bytes [255, 0])] := rfl
  rw [items] at member
  simp only [List.mem_cons, List.not_mem_nil, or_false] at member
  rcases member with rfl | rfl | rfl | rfl
  · exact .string _
  · exact .number (by unfold Number.ReadsBack; decide)
  · exact .number (by unfold Number.ReadsBack; decide)
  · exact .bytes _

/-- The enumeration can be held by tagged text. -/
theorem unevenEnumeration_portable : (Value.ofData (.enumeration unevenEnumeration)).Portable := by
  refine .enumeration (by decide) fun value member => ?_
  have values : unevenEnumeration.entries.values = [1, -3] := rfl
  rw [values] at member
  simp only [List.mem_cons, List.not_mem_nil, or_false] at member
  rcases member with rfl | rfl <;> unfold Number.ReadsBack <;> decide

/-- A list of the map, the enumeration and null is read back from its text. -/
theorem toValue_ofValue_uneven :
    (Value.array [.collection unevenMap, .ofData (.enumeration unevenEnumeration), .null]).Portable ∧
    ∃ text, ofValue? (fun _ => []) 0
        (.array [.collection unevenMap, .ofData (.enumeration unevenEnumeration), .null]) = some text ∧
      toValue text = .ok (Value.array [.collection unevenMap,
        .ofData (.enumeration unevenEnumeration), .null]).asWritten := by
  have portable : (Value.array [.collection unevenMap, .ofData (.enumeration unevenEnumeration),
      .null]).Portable := by
    refine .array fun item member => ?_
    simp only [List.mem_cons, List.not_mem_nil, or_false] at member
    rcases member with rfl | rfl | rfl
    · exact unevenMap_portable
    · exact unevenEnumeration_portable
    · exact .null
  exact ⟨portable, toValue_ofValue _ _ portable⟩

end Tagged

end ScriptEngine

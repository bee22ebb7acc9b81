import ScriptEngine.Proofs.Value.Structure

/-! Equality of collections. Collections are equal if their texts are, which is so exactly if their elements
look alike, as long as they are legible. -/

namespace ScriptEngine

open Text

/-- Values look alike as elements of collections: they are equal, but that objects show their types only,
and enumerations the order of their entries as well. -/
def Value.looksLike (left right : Value) : Prop :=
  match left.data, right.data with
  | .object left, .object right => left.typeTag = right.typeTag
  | .enumeration left, .enumeration right =>
    left.name = right.name ∧ left.entries.entries = right.entries.entries
  | _, _ => left == right

namespace Value

variable {value other : Value}

/-- But for objects and enumerations, values look alike exactly if they are equal. -/
theorem looksLike_iff_equals (noObject : ∀ handle, value.data ≠ .object handle)
    (noEnumeration : ∀ enumeration, value.data ≠ .enumeration enumeration) :
    value.looksLike other ↔ (value == other) = true := by
  unfold looksLike
  split
  case h_1 handle _ data _ => exact absurd data (noObject handle)
  case h_2 enumeration _ data _ => exact absurd data (noEnumeration enumeration)
  case h_3 => rfl

/-- Equality is that of what values are. -/
theorem beq_eq_equals (value other : Value) : (value == other) = value.data.equals other.data := by
  obtain ⟨data, _, _⟩ := value
  change equals ⟨data, _, _⟩ other = _
  rw [equals]

/-- Collections are equal exactly if they are of one kind and have the same text. -/
theorem equals_collection {left right : Collection Value} (data : value.data = .collection left)
    (data' : other.data = .collection right) :
    (value == other) = true ↔ left.isMap = right.isMap ∧ value.shown = other.shown := by
  rw [beq_eq_equals, shown_eq_display (by simp [data]), shown_eq_display (by simp [data']), data, data']
  simp [Data.equals]

/-- Entries of an enumeration can be read off their texts. -/
theorem enumerationParts_inj {left right : Enumeration}
    (keys : ∀ entry ∈ left.entries.entries, PlainKey entry.1)
    (keys' : ∀ entry ∈ right.entries.entries, PlainKey entry.1)
    (same : enumerationParts left = enumerationParts right) :
    left.entries.entries = right.entries.entries := by
  unfold enumerationParts at same
  have length : left.entries.entries.length = right.entries.entries.length := by
    simpa using congrArg List.length same
  -- The entries are compared position by position.
  refine List.ext_getElem length fun position within within' => ?_
  have texts := List.getElem_of_eq same (by simpa using within)
  rw [List.getElem_map, List.getElem_map] at texts
  obtain ⟨names, numbers⟩ := shownEntry_inj (keys _ (List.getElem_mem within))
    (keys' _ (List.getElem_mem within')) texts
  exact Prod.ext names (Int.repr_inj.mp numbers)

/-- Entries of a map can be read off their texts. -/
theorem mapParts_inj {items items' : List Value} {index index' : List (String × Nat)}
    (length : index.length = items.length) (length' : index'.length = items'.length)
    (keys : ∀ entry ∈ index, PlainKey entry.1) (keys' : ∀ entry ∈ index', PlainKey entry.1)
    (same : mapParts items index = mapParts items' index') :
    index.map (·.1) = index'.map (·.1) ∧ items.map shown = items'.map shown := by
  unfold mapParts at same
  -- The induction goes along both maps.
  induction items generalizing index items' index' with
  | nil =>
    rw [List.length_nil, List.length_eq_zero_iff] at length
    subst length
    have none : index' = [] ∨ items' = [] := by simpa using same.symm
    rcases none with rfl | rfl
    · rw [List.length_nil, eq_comm, List.length_eq_zero_iff] at length'
      simp [length']
    · rw [List.length_nil, List.length_eq_zero_iff] at length'
      simp [length']
  | cons item items ih =>
    obtain ⟨entry, index, rfl⟩ := List.exists_cons_of_length_eq_add_one length
    cases items' with
    | nil => simp at same
    | cons item' items' =>
      obtain ⟨entry', index', rfl⟩ := List.exists_cons_of_length_eq_add_one length'
      simp only [List.zipWith_cons_cons, List.cons.injEq] at same
      obtain ⟨names, text⟩ := shownEntry_inj (keys entry List.mem_cons_self)
        (keys' entry' List.mem_cons_self) same.1
      obtain ⟨others, rests⟩ := ih (by simpa using length) (by simpa using length')
        (fun entry isEntry => keys entry (List.mem_cons_of_mem _ isEntry))
        (fun entry isEntry => keys' entry (List.mem_cons_of_mem _ isEntry)) same.2
      simp [names, text, others, rests]

/-- Equality of a value that is neither an object nor an enumeration is looking alike. -/
theorem looksLike_of_equals (noObject : ∀ handle, value.data ≠ .object handle)
    (noEnumeration : ∀ enumeration, value.data ≠ .enumeration enumeration)
    (same : value.data.equals other.data = true) : value.looksLike other := by
  rwa [looksLike_iff_equals noObject noEnumeration, beq_eq_equals]

/-- A value without structure is neither an object nor an enumeration. -/
theorem single_of_atomic (atomic : value.data.Atomic) : (∀ handle, value.data ≠ .object handle) ∧
    ∀ enumeration, value.data ≠ .enumeration enumeration := by
  constructor <;>
  · intro _ data
    rw [data] at atomic
    cases atomic

/-- Legible values with the same text look alike. -/
theorem Legible.looksLike_of_shown (legible : value.Legible) (legible' : other.Legible)
    (same : value.shown = other.shown) : value.looksLike other := by
  have texts : value.shown.toList ++ [] = other.shown.toList ++ [] := by rw [same]
  have opening := legible.opening_eq legible' texts
  -- The head of the text tells which of the forms both values have.
  cases legible with
  | atomic atomic =>
    rw [opening_atomic atomic] at opening
    rcases legible'.plain_of_opening opening.symm with atomic' | ⟨_, data, plain, _⟩
    · rw [shown_atomic atomic, shown_atomic atomic'] at same
      -- Without structure, the same text means the same value.
      obtain ⟨noObject, noEnumeration⟩ := single_of_atomic atomic
      exact looksLike_of_equals noObject noEnumeration (atomic.equals_of_display atomic' same)
    · exact absurd texts (atomic_ne_enumeration atomic data plain fun c isHead => by cases isHead)
  | string data =>
    rw [opening_string data] at opening
    obtain ⟨text, data'⟩ := legible'.string_of_opening opening.symm
    rw [shown_string data, shown_string data'] at texts
    refine looksLike_of_equals (by simp [data]) (by simp [data]) ?_
    rw [data, data', (quoted_cancel texts).1]
    simp [Data.equals]
  | object data isClosed =>
    rw [opening_object data] at opening
    obtain ⟨handle, data', isClosed'⟩ := legible'.object_of_opening opening.symm
    unfold looksLike
    rw [data, data']
    exact object_cancel data data' isClosed isClosed' texts
  | enumeration data plain keys =>
    rw [opening_enumeration data] at opening
    rcases legible'.plain_of_opening opening.symm with atomic' | ⟨_, data', plain', keys'⟩
    · exact absurd texts.symm (atomic_ne_enumeration atomic' data plain fun c isHead => by cases isHead)
    · obtain ⟨names, parts⟩ := enumeration_cancel data data' plain plain' keys keys' texts
      unfold looksLike
      rw [data, data']
      exact ⟨names, enumerationParts_inj keys keys' parts⟩
  | array data =>
    rw [opening_array data] at opening
    obtain ⟨items', data', _⟩ := legible'.array_of_opening opening.symm
    -- Collections are compared by text anyway.
    rw [looksLike_iff_equals (by simp [data]) (by simp [data]), equals_collection data data']
    exact ⟨rfl, same⟩
  | map data =>
    rw [opening_map data] at opening
    obtain ⟨items', index', data', _⟩ := legible'.map_of_opening opening.symm
    rw [looksLike_iff_equals (by simp [data]) (by simp [data]), equals_collection data data']
    exact ⟨rfl, same⟩

/-- What equals a value without structure has none. -/
theorem Legible.atomic_of_equals (legible : other.Legible) (atomic : value.data.Atomic)
    (same : value.data.equals other.data = true) : other.data.Atomic := by
  cases legible with
  | atomic atomic' => exact atomic'
  | string data | object data | enumeration data | array data | map data =>
    rw [data] at same
    generalize value.data = data at atomic same
    cases atomic <;> simp [Data.equals] at same

/-- Only collections are equal to a collection. -/
theorem collection_of_equals {collection : Collection Value} (data : value.data = .collection collection)
    (same : (value == other) = true) : value.shown = other.shown := by
  have also : ∃ collection', other.data = .collection collection' := by
    rw [beq_eq_equals, data] at same
    generalize other.data = data' at same
    cases data' <;> simp [Data.equals] at same ⊢
  obtain ⟨collection', data'⟩ := also
  exact ((equals_collection data data').mp same).2

/-- Legible values that look alike have the same text. -/
theorem Legible.shown_of_looksLike (legible : value.Legible) (legible' : other.Legible)
    (alike : value.looksLike other) : value.shown = other.shown := by
  -- Values that look alike have one form, and each form has its own reason for the text.
  cases legible with
  | atomic atomic =>
    obtain ⟨noObject, noEnumeration⟩ := single_of_atomic atomic
    rw [looksLike_iff_equals noObject noEnumeration, beq_eq_equals] at alike
    have atomic' := legible'.atomic_of_equals atomic alike
    rw [shown_atomic atomic, shown_atomic atomic', atomic.display_of_equals atomic' alike]
  | @string _ text data =>
    rw [looksLike_iff_equals (by simp [data]) (by simp [data]), beq_eq_equals, data] at alike
    have data' : other.data = .string text := by
      generalize other.data = data' at alike
      cases data' <;> simp_all [Data.equals]
    rw [shown_string data, shown_string data']
  | object data isClosed =>
    unfold looksLike at alike
    split at alike
    case h_1 handle handle' isHandle isHandle' =>
      exact String.toList_injective (by rw [shown_object isHandle, shown_object isHandle', alike])
    case h_2 isEnumeration _ => cases data.symm.trans isEnumeration
    case h_3 noObjects _ =>
      rw [beq_eq_equals, data] at alike
      generalize found : other.data = data' at alike
      cases data' <;> simp [Data.equals] at alike
      exact absurd found (noObjects _ _ data)
  | enumeration data plain keys =>
    unfold looksLike at alike
    split at alike
    case h_1 isObject _ => cases data.symm.trans isObject
    case h_2 left right isLeft isRight =>
      refine String.toList_injective ?_
      rw [shown_enumeration isLeft, shown_enumeration isRight, alike.1, enumerationParts, alike.2,
        enumerationParts]
    case h_3 noEnumerations =>
      rw [beq_eq_equals, data] at alike
      generalize found : other.data = data' at alike
      cases data' <;> simp [Data.equals] at alike
      exact absurd found (noEnumerations _ _ data)
  | array data | map data =>
    rw [looksLike_iff_equals (by simp [data]) (by simp [data])] at alike
    exact collection_of_equals data alike

/-- The key of each position is found where it stands. -/
theorem keyOf?_of_positions {items : List Value} {index : List (String × Nat)}
    (positions : index.map (·.2) = List.range items.length) {position : Nat}
    (within : position < index.length) :
    (Collection.mk items (some index)).keyOf? position = some index[position].1 := by
  have recorded : ∀ (place : Nat) (here : place < index.length), index[place].2 = place := fun _ =>
    position_of_positions positions
  -- No entry in front of the position is recorded for it.
  have found : index.find? (fun entry => entry.2 == position) = some index[position] := by
    rw [List.find?_eq_some_iff_getElem]
    refine ⟨by simp [recorded], position, within, rfl, fun place before => ?_⟩
    simp [recorded, Nat.ne_of_lt before]
  simp only [Collection.keyOf?, Collection.keyIndex, Option.getD_some]
  rw [found]
  rfl

/-- Elements look alike at each position exactly if they have the same texts. -/
theorem looksLike_iff_map_shown {items items' : List Value} (legible : ∀ item ∈ items, item.Legible)
    (legible' : ∀ item ∈ items', item.Legible) : items.map shown = items'.map shown ↔
      items.length = items'.length ∧ ∀ (position : Nat) (x y : Value), items[position]? = some x →
        items'[position]? = some y → x.looksLike y := by
  constructor
  · intro same
    -- The texts at each position are the same, and each is that of its element.
    refine ⟨by simpa using congrArg List.length same, fun position x y isX isY => ?_⟩
    have texts : (items.map shown)[position]? = (items'.map shown)[position]? := by rw [same]
    rw [List.getElem?_map, List.getElem?_map, isX, isY] at texts
    exact (legible x (List.mem_of_getElem? isX)).looksLike_of_shown (legible' y (List.mem_of_getElem? isY))
      (Option.some.inj texts)
  · rintro ⟨length, alike⟩
    refine List.ext_getElem (by simpa) fun position within within' => ?_
    rw [List.getElem_map, List.getElem_map]
    have here : position < items.length := by simpa using within
    have here' : position < items'.length := by simpa using within'
    exact (legible _ (List.getElem_mem here)).shown_of_looksLike (legible' _ (List.getElem_mem here'))
      (alike position _ _ (List.getElem?_eq_getElem here) (List.getElem?_eq_getElem here'))

variable {u v : Value} {items items' : List Value}

/-- Arrays of legible elements have the same text exactly if their elements do. -/
theorem shown_eq_iff_array (isLeft : u.data = .collection ⟨items, none⟩)
    (isRight : v.data = .collection ⟨items', none⟩) (legible : ∀ item ∈ items, item.Legible)
    (legible' : ∀ item ∈ items', item.Legible) :
    u.shown = v.shown ↔ items.map shown = items'.map shown := by
  constructor
  · intro same
    -- Between brackets the texts of the elements are told apart.
    have whole : u.shown.toList ++ [] = v.shown.toList ++ [] := by rw [same]
    have texts := array_cancel isLeft isRight legible legible'
      (fun item isItem item' isItem' => (legible item isItem).separate (legible' item' isItem')) whole
    refine List.map_injective_iff.mpr (fun _ _ same => String.toList_injective same) ?_
    rwa [List.map_map, List.map_map]
  · intro same
    have texts := congrArg (List.map String.toList) same
    rw [List.map_map, List.map_map] at texts
    refine String.toList_injective ?_
    rw [shown_array isLeft, shown_array isRight]
    exact congrArg (fun parts => '[' :: closedList ']' parts) texts

/-- Maps of legible elements have the same text exactly if their keys and their elements do. -/
theorem shown_eq_iff_map {index index' : List (String × Nat)}
    (isLeft : u.data = .collection ⟨items, some index⟩)
    (isRight : v.data = .collection ⟨items', some index'⟩)
    (positions : index.map (·.2) = List.range items.length)
    (positions' : index'.map (·.2) = List.range items'.length)
    (keys : ∀ entry ∈ index, PlainKey entry.1) (keys' : ∀ entry ∈ index', PlainKey entry.1)
    (legible : ∀ item ∈ items, item.Legible) (legible' : ∀ item ∈ items', item.Legible) :
    u.shown = v.shown ↔ index.map (·.1) = index'.map (·.1) ∧ items.map shown = items'.map shown := by
  -- There are as many keys as elements.
  have length : index.length = items.length := by simpa using congrArg List.length positions
  have length' : index'.length = items'.length := by simpa using congrArg List.length positions'
  constructor
  · intro same
    have whole : u.shown.toList ++ [] = v.shown.toList ++ [] := by rw [same]
    refine mapParts_inj length length' keys keys' ?_
    exact map_cancel isLeft isRight positions positions' keys keys'
      (fun item isItem item' isItem' => (legible item isItem).separate (legible' item' isItem')) whole
  · rintro ⟨names, texts⟩
    have parts : ∀ (items : List Value) (index : List (String × Nat)), mapParts items index =
        List.zipWith (fun name text => (shownEntry name text).toList) (index.map (·.1))
          (items.map shown) := by
      intro items index
      rw [List.zipWith_map]
      rfl
    refine String.toList_injective ?_
    rw [shown_map isLeft positions, shown_map isRight positions', parts, parts, names, texts]

/-- The same keys are found at all positions exactly if they are recorded in the same order. -/
theorem keyOf?_eq_iff {index index' : List (String × Nat)}
    (positions : index.map (·.2) = List.range items.length)
    (positions' : index'.map (·.2) = List.range items'.length) (length : items.length = items'.length) :
    (∀ position, (Collection.mk items (some index)).keyOf? position =
      (Collection.mk items' (some index')).keyOf? position) ↔ index.map (·.1) = index'.map (·.1) := by
  have size : index.length = items.length := by simpa using congrArg List.length positions
  have size' : index'.length = items'.length := by simpa using congrArg List.length positions'
  constructor
  · intro keys
    refine List.ext_getElem (by simp; omega) fun position within within' => ?_
    have here : position < index.length := by simpa using within
    have here' : position < index'.length := by simpa using within'
    have key := keys position
    rw [keyOf?_of_positions positions here, keyOf?_of_positions positions' here'] at key
    rw [List.getElem_map, List.getElem_map, Option.some.inj key]
  · intro names position
    -- Entries agree in their keys, and each of them in its position.
    have same : index = index' := by
      refine List.ext_getElem (by omega) fun place here here' => ?_
      have name := List.getElem_of_eq names (by simpa using here)
      rw [List.getElem_map, List.getElem_map] at name
      refine Prod.ext name ?_
      rw [position_of_positions positions here, position_of_positions positions' here']
    simp only [Collection.keyOf?, Collection.keyIndex, Option.getD_some, same]

end Value

open Value

/-- Two collections that are legible are equal exactly if both are arrays or both are maps, they have the
same length, the elements at each position look alike, and the same key is recorded at each position. -/
theorem collections_equal_by_elements (u v : Value) (left right : Collection Value)
    (isLeft : u.data = .collection left) (isRight : v.data = .collection right)
    (legible : u.Legible) (legible' : v.Legible) :
    (u == v) = true ↔ left.isMap = right.isMap ∧ left.size = right.size ∧
      (∀ (position : Nat) (x y : Value), left.get? position = some x → right.get? position = some y →
        x.looksLike y) ∧
      ∀ position, left.keyOf? position = right.keyOf? position := by
  -- The kind is compared apart from the text, and the text tells everything else.
  rw [equals_collection isLeft isRight]
  refine and_congr_right fun kinds => ?_
  obtain ⟨items, index⟩ := left
  obtain ⟨items', index'⟩ := right
  cases index with
  | none =>
    obtain rfl : index' = none := by simpa [Collection.isMap] using kinds.symm
    obtain ⟨_, data, elements⟩ := legible.array_of_opening (opening_array isLeft)
    obtain ⟨_, data', elements'⟩ := legible'.array_of_opening (opening_array isRight)
    cases isLeft.symm.trans data
    cases isRight.symm.trans data'
    rw [shown_eq_iff_array isLeft isRight elements elements', looksLike_iff_map_shown elements elements']
    -- No position of an array has a key.
    constructor
    · rintro ⟨length, alike⟩
      exact ⟨length, alike, fun _ => rfl⟩
    · rintro ⟨length, alike, -⟩
      exact ⟨length, alike⟩
  | some index =>
    obtain ⟨index', rfl⟩ : ∃ entries, index' = some entries := by
      simpa [Collection.isMap, Option.isSome_iff_exists] using kinds.symm
    obtain ⟨_, _, data, positions, keys, elements⟩ := legible.map_of_opening (opening_map isLeft)
    obtain ⟨_, _, data', positions', keys', elements'⟩ := legible'.map_of_opening (opening_map isRight)
    cases isLeft.symm.trans data
    cases isRight.symm.trans data'
    rw [shown_eq_iff_map isLeft isRight positions positions' keys keys' elements elements',
      looksLike_iff_map_shown elements elements']
    constructor
    · rintro ⟨names, length, alike⟩
      exact ⟨length, alike, (keyOf?_eq_iff positions positions' length).mpr names⟩
    · rintro ⟨length, alike, found⟩
      exact ⟨(keyOf?_eq_iff positions positions' length).mp found, length, alike⟩

/-- An array of a number, a text that could be two elements, a map, and an object of the type `P`. -/
def assorted (id : Nat) : List Value :=
  [number 1, string "1, 2", map [("key", null)], ofData (.object ⟨"P", .scripted id⟩)]

/-- Such an array can be read off its text. -/
theorem legible_assorted (id : Nat) : (array (assorted id)).Legible := by
  refine .array rfl fun item isItem => ?_
  simp only [assorted, List.mem_cons, List.not_mem_nil, or_false] at isItem
  -- Each of the four elements is legible for a reason of its own.
  rcases isItem with rfl | rfl | rfl | rfl
  · exact .atomic (.number (by decide +kernel))
  · exact .string rfl
  · have data : (map [("key", null)]).data = .collection ⟨[null], some [("key", 0)]⟩ := rfl
    refine .map data rfl (fun entry isEntry => ?_) fun item isItem => ?_
    · rw [List.mem_singleton.mp isEntry]
      exact ⟨by decide, by decide⟩
    · rw [List.mem_singleton.mp isItem]
      exact .atomic .null
  · have data : (ofData (.object ⟨"P", .scripted id⟩)).data = .object ⟨"P", .scripted id⟩ := rfl
    exact .object data (show '>' ∉ "P".toList by decide)

/-- Only the types of the objects matter. -/
theorem collections_equal_by_elements_assorted :
    (array (assorted 0)).Legible ∧ (array (assorted 1)).Legible ∧
      (array (assorted 0) == array (assorted 1)) = true := by
  refine ⟨legible_assorted 0, legible_assorted 1, ?_⟩
  refine (collections_equal_by_elements _ _ ⟨assorted 0, none⟩ ⟨assorted 1, none⟩ rfl rfl
    (legible_assorted 0) (legible_assorted 1)).mpr ⟨rfl, rfl, ?_, fun _ => rfl⟩
  intro position x y isX isY
  -- Of the objects, only the types are compared; the other elements are the same.
  match position with
  | 0 | 1 | 2 =>
    cases isX
    cases isY
    change (_ == _) = true
    decide +kernel
  | 3 =>
    cases isX
    cases isY
    rfl
  | _ + 4 => cases isX

/-- Whether two collections are of one kind, with equal elements and the same keys throughout. -/
def sameElements (left right : Collection Value) : Bool :=
  left.isMap == right.isMap && left.items == right.items &&
    (List.range left.size).all fun position => left.keyOf? position == right.keyOf? position

/-- Pairs of collections that have the same text. -/
def confused : List (Collection Value × Collection Value) := [
  -- Bytes may look like a number, or like nothing.
  (⟨[number 10], none⟩, ⟨[ofData (.bytes [0x10])], none⟩),
  (⟨[], none⟩, ⟨[ofData (.bytes [])], none⟩),
  -- A signal to return looks like what is returned.
  (⟨[null], none⟩, ⟨[returnSignal null], none⟩),
  -- Two objects of one type, and two types in one.
  (⟨[ofData (.object ⟨"P", .scripted 0⟩)], none⟩, ⟨[ofData (.object ⟨"P", .scripted 1⟩)], none⟩),
  (⟨[ofData (.object ⟨"P", .foreign 0⟩), ofData (.object ⟨"Q", .foreign 1⟩)], none⟩,
    ⟨[ofData (.object ⟨"P>, <Q", .foreign 2⟩)], none⟩),
  -- An enumeration without a name looks like a map.
  (⟨[ofData (.enumeration ⟨"", ⟨[("a", 1)]⟩⟩)], none⟩, ⟨[map [("a", number 1)]], none⟩),
  -- A key may look like another entry, or like the end of a map.
  (⟨[number 1, number 2], some [("a", 0), ("b", 1)]⟩, ⟨[number 2], some [("a: 1, b", 0)]⟩),
  (⟨[map [], map [("a", null)]], none⟩, ⟨[map [("\x7d, \x7ba", null)]], none⟩),
  -- An element of a map that has no key is not shown.
  (⟨[number 1], some [("a", 0)]⟩, ⟨[number 1, number 2], some [("a", 0)]⟩)]

/-- Collections are equal if they have the same text, even though their elements or keys differ. And
enumerations that are equal, but not in the order of their entries, make collections of them differ. -/
theorem texts_confuse_collections :
    (∀ pair ∈ confused, (collection pair.1 == collection pair.2) = true ∧
      sameElements pair.1 pair.2 = false) ∧
    let forwards := ofData (.enumeration ⟨"E", ⟨[("a", 1), ("b", 2)]⟩⟩)
    let backwards := ofData (.enumeration ⟨"E", ⟨[("b", 2), ("a", 1)]⟩⟩)
    sameElements ⟨[forwards], none⟩ ⟨[backwards], none⟩ = true ∧
      (array [forwards] == array [backwards]) = false := by
  decide +kernel

end ScriptEngine

import ScriptEngine.Proofs.Value.Atomic

/-! The texts of values as elements of collections. The text of a collection is made of those of its
elements, which can be read off it unless the elements are illegible. -/

namespace ScriptEngine

open Text

/-! The texts of elements. -/

/-- The text of an element of a collection, where strings are quoted. -/
def Value.shown (value : Value) : String :=
  match value.data with
  | .string text => quoted text
  | _ => value.display

/-- Elements are shown one by one. -/
theorem displayAll_eq (items : List Value) : displayAll items = items.map Value.shown := by
  induction items with
  | nil => rfl
  | cons item rest ih =>
    rw [displayAll, ih, List.map_cons]
    unfold Value.shown
    cases item.data <;> rfl

/-- A name whose end is seen in front of a brace. -/
structure PlainName (name : String) : Prop where
  some : name.toList ≠ []
  unmarked : ∀ c ∈ name.toList, isMark c = false

/-- The values that can be read off their texts. -/
inductive Value.Legible : Value → Prop where
  | atomic {value : Value} (atomic : value.data.Atomic) : Legible value
  | string {value : Value} {text : String} (data : value.data = .string text) : Legible value
  | object {value : Value} {handle : ObjectHandle} (data : value.data = .object handle)
      (isClosed : '>' ∉ handle.typeTag.toList) : Legible value
  | enumeration {value : Value} {enumeration : Enumeration} (data : value.data = .enumeration enumeration)
      (plain : PlainName enumeration.name)
      (keys : ∀ entry ∈ enumeration.entries.entries, PlainKey entry.1) : Legible value
  | array {value : Value} {items : List Value} (data : value.data = .collection ⟨items, none⟩)
      (items : ∀ item ∈ items, Legible item) : Legible value
  /-- Each element of a map has its key. -/
  | map {value : Value} {items : List Value} {index : List (String × Nat)}
      (data : value.data = .collection ⟨items, some index⟩)
      (positions : index.map (·.2) = List.range items.length)
      (keys : ∀ entry ∈ index, PlainKey entry.1) (items : ∀ item ∈ items, Legible item) : Legible value

/-- The mark that the text of a value begins with, if it begins with one. -/
def Value.opening (value : Value) : Option Char :=
  match value.data with
  | .string _ => some '"'
  | .collection collection => some (if collection.isMap then '\x7b' else '[')
  | .object _ => some '<'
  | _ => none

/-- The texts of the entries of a map. -/
def mapParts (items : List Value) (index : List (String × Nat)) : List (List Char) :=
  List.zipWith (fun entry item => (shownEntry entry.1 item.shown).toList) index items

/-- The text of an entry is made of its key and its element. -/
theorem mem_mapParts {items : List Value} {index : List (String × Nat)} {part : List Char}
    (isPart : part ∈ mapParts items index) :
    ∃ entry ∈ index, ∃ item ∈ items, part = (shownEntry entry.1 item.shown).toList := by
  unfold mapParts at isPart
  rw [← List.map_uncurry_zip_eq_zipWith] at isPart
  obtain ⟨⟨entry, item⟩, isPair, rfl⟩ := List.mem_map.mp isPart
  exact ⟨entry, (List.of_mem_zip isPair).1, item, (List.of_mem_zip isPair).2, rfl⟩

/-- Keys that are recorded in order stand at the positions that are recorded for them. -/
theorem position_of_positions {index : List (String × Nat)} {size : Nat}
    (positions : index.map (·.2) = List.range size) {position : Nat} (within : position < index.length) :
    index[position].2 = position := by
  have within : position < (index.map (·.2)).length := by simpa
  simpa using List.getElem_of_eq positions within

/-- The texts of the entries of an enumeration. -/
def enumerationParts (enumeration : Enumeration) : List (List Char) :=
  enumeration.entries.entries.map fun entry => (shownEntry entry.1 (toString entry.2)).toList

namespace Value

variable {value other : Value}

/-- The text of a string is quoted. -/
theorem shown_string {text : String} (data : value.data = .string text) : value.shown = quoted text := by
  simp [shown, data]

/-- The text of another value is its display form. -/
theorem shown_eq_display (single : ∀ text, value.data ≠ .string text) :
    value.shown = value.data.display := by
  obtain ⟨data, _, _⟩ := value
  unfold shown
  split
  case h_1 text isString => exact absurd isString (single text)
  case h_2 => rfl

/-- The text of an object is the name of its type. -/
theorem shown_object {handle : ObjectHandle} (data : value.data = .object handle) :
    value.shown.toList = '<' :: (handle.typeTag.toList ++ ['>']) := by
  rw [shown_eq_display (by simp [data]), data]
  simp [Data.display, String.toList_append]

/-- The text of an enumeration begins with its name. -/
theorem shown_enumeration {enumeration : Enumeration} (data : value.data = .enumeration enumeration) :
    value.shown.toList =
      enumeration.name.toList ++ '\x7b' :: closedList '\x7d' (enumerationParts enumeration) := by
  rw [shown_eq_display (by simp [data]), data]
  -- The entries are listed behind the name.
  have between := listText_toList '\x7b' '\x7d' (enumeration.entries.entries.map fun entry =>
    shownEntry entry.1 (toString entry.2))
  rw [List.map_map] at between
  simp only [Data.display, String.toList_append]
  exact congrArg (enumeration.name.toList ++ ·) between

/-- The text of an array is that of its elements. -/
theorem shown_array {items : List Value} (data : value.data = .collection ⟨items, none⟩) :
    value.shown.toList = '[' :: closedList ']' (items.map fun item => item.shown.toList) := by
  rw [shown_eq_display (by simp [data]), data]
  have between := listText_toList '[' ']' (items.map shown)
  rw [List.map_map] at between
  simp only [Data.display, displayAll_eq]
  exact between

/-- The text of a map is that of its entries. -/
theorem shown_map {items : List Value} {index : List (String × Nat)}
    (data : value.data = .collection ⟨items, some index⟩)
    (positions : index.map (·.2) = List.range items.length) :
    value.shown.toList = '\x7b' :: closedList '\x7d' (mapParts items index) := by
  rw [shown_eq_display (by simp [data]), data]
  have between := listText_toList '\x7b' '\x7d' (index.map fun entry =>
    shownEntry entry.1 ((items.map shown)[entry.2]?.getD "undefined"))
  have length : index.length = items.length := by simpa using congrArg List.length positions
  -- The element at each position is the one that stands there.
  have parts : (index.map fun entry => shownEntry entry.1 ((items.map shown)[entry.2]?.getD
      "undefined")).map String.toList = mapParts items index := by
    refine List.ext_getElem (by simp [mapParts, length]) fun position within within' => ?_
    have here : position < items.length := by
      simp only [List.length_map] at within
      omega
    have recorded := position_of_positions positions (length.symm ▸ here)
    simp [mapParts, recorded, here]
  rw [parts] at between
  simp only [Data.display, displayAll_eq]
  exact between

/-! How the texts of the kinds of values begin. -/

theorem opening_atomic (atomic : value.data.Atomic) : value.opening = none := by
  obtain ⟨data, _, _⟩ := value
  cases atomic <;> rfl

theorem opening_string {text : String} (data : value.data = .string text) :
    value.opening = some '"' := by
  simp [opening, data]

theorem opening_object {handle : ObjectHandle} (data : value.data = .object handle) :
    value.opening = some '<' := by
  simp [opening, data]

theorem opening_enumeration {enumeration : Enumeration} (data : value.data = .enumeration enumeration) :
    value.opening = none := by
  simp [opening, data]

theorem opening_array {items : List Value} (data : value.data = .collection ⟨items, none⟩) :
    value.opening = some '[' := by
  simp [opening, data, Collection.isMap]

theorem opening_map {items : List Value} {index : List (String × Nat)}
    (data : value.data = .collection ⟨items, some index⟩) : value.opening = some '\x7b' := by
  simp [opening, data, Collection.isMap]

/-- The text of a value without structure is its display form. -/
theorem shown_atomic (atomic : value.data.Atomic) : value.shown = value.data.display := by
  refine shown_eq_display fun text data => ?_
  rw [data] at atomic
  cases atomic

/-- The text of a legible value begins with the mark of its kind, or without a mark, and with no end. -/
theorem Legible.begins (legible : value.Legible) : ∃ first rest, value.shown.toList = first :: rest ∧
    isEnd first = false ∧ value.opening = if isMark first then some first else none := by
  -- A text without marks begins without one.
  have plain : ∀ {text behind : List Char}, text ≠ [] → (∀ c ∈ text, isMark c = false) →
      value.shown.toList = text ++ behind → value.opening = none →
      ∃ first rest, value.shown.toList = first :: rest ∧ isEnd first = false ∧
        value.opening = if isMark first then some first else none := by
    intro text behind some unmarked shown opening
    cases text with
    | nil => exact absurd rfl some
    | cons first rest =>
      have noMark := unmarked first List.mem_cons_self
      refine ⟨first, rest ++ behind, shown, ?_, by rw [opening, noMark]; rfl⟩
      refine Bool.eq_false_iff.mpr fun ends => ?_
      rw [isMark_of_isEnd ends] at noMark
      cases noMark
  cases legible with
  | atomic atomic =>
    have shown : value.shown.toList = value.data.display.toList ++ [] := by
      rw [shown_atomic atomic, List.append_nil]
    exact plain atomic.display_ne_nil atomic.unmarked shown (opening_atomic atomic)
  | @string _ text data =>
    have shown : value.shown.toList = '"' :: (text.toList.flatMap quotedChar ++ ['"']) := by
      rw [shown_string data, quoted, String.toList_ofList]
      rfl
    exact ⟨'"', _, shown, by decide, opening_string data⟩
  | object data => exact ⟨'<', _, shown_object data, by decide, opening_object data⟩
  | enumeration data name =>
    exact plain name.some name.unmarked (shown_enumeration data) (opening_enumeration data)
  | array data => exact ⟨'[', _, shown_array data, by decide, opening_array data⟩
  | map data positions => exact ⟨'\x7b', _, shown_map data positions, by decide, opening_map data⟩

/-- Legible values in front of the same text begin in the same way. -/
theorem Legible.opening_eq (legible : value.Legible) (legible' : other.Legible) {rest behind : List Char}
    (same : value.shown.toList ++ rest = other.shown.toList ++ behind) :
    value.opening = other.opening := by
  obtain ⟨first, tail, shown, _, opening⟩ := legible.begins
  obtain ⟨first', tail', shown', _, opening'⟩ := legible'.begins
  rw [shown, shown'] at same
  rw [opening, opening', (List.cons.inj same).1]

/-- A legible value does not begin with a closing bracket. -/
theorem Legible.beginsWithout (legible : value.Legible) {closer : Char} (closes : isEnd closer = true) :
    BeginsWithout closer value.shown.toList := by
  obtain ⟨first, rest, shown, inside, _⟩ := legible.begins
  refine ⟨first, rest, shown, ?_⟩
  rintro rfl
  rw [inside] at closes
  cases closes

/-- The texts of the entries of an enumeration can be told from each other. -/
theorem separate_enumerationParts {left right : Enumeration}
    (keys : ∀ entry ∈ left.entries.entries, PlainKey entry.1)
    (keys' : ∀ entry ∈ right.entries.entries, PlainKey entry.1) :
    ∀ part ∈ enumerationParts left, ∀ part' ∈ enumerationParts right, Separate part part' := by
  intro part isPart part' isPart'
  obtain ⟨entry, isEntry, rfl⟩ := List.mem_map.mp isPart
  obtain ⟨entry', isEntry', rfl⟩ := List.mem_map.mp isPart'
  refine Separate.shownEntry (keys entry isEntry) (keys' entry' isEntry') ?_
  -- No digit and no sign is an end.
  intro rest other stops stops' same
  have free : ∀ number : Int, ∀ c ∈ (toString number).toList, isEnd c = false := by
    intro number c member
    refine Bool.eq_false_iff.mpr fun ends => ?_
    have noMark := not_isMark (by decide) (Number.isNumeric_toString number c member)
    rw [isMark_of_isEnd ends] at noMark
    cases noMark
  exact (cancel_stopped (free entry.2) (free entry'.2) stops stops' same).1

/-- The texts of the entries of maps can be told from each other if those of the elements can. -/
theorem separate_mapParts {items items' : List Value} {index index' : List (String × Nat)}
    (keys : ∀ entry ∈ index, PlainKey entry.1) (keys' : ∀ entry ∈ index', PlainKey entry.1)
    (separate : ∀ item ∈ items, ∀ item' ∈ items', Separate item.shown.toList item'.shown.toList) :
    ∀ part ∈ mapParts items index, ∀ part' ∈ mapParts items' index', Separate part part' := by
  intro part isPart part' isPart'
  obtain ⟨entry, isEntry, item, isItem, rfl⟩ := mem_mapParts isPart
  obtain ⟨entry', isEntry', item', isItem', rfl⟩ := mem_mapParts isPart'
  have texts := separate item isItem item' isItem'
  exact Separate.shownEntry (keys entry isEntry) (keys' entry' isEntry') texts

/-! What a legible value is, as its text begins. -/

namespace Legible

/-- A legible value that begins with a quote is a string. -/
theorem string_of_opening (legible : value.Legible) (opening : value.opening = some '"') :
    ∃ text, value.data = .string text := by
  cases legible with
  | string data => exact ⟨_, data⟩
  | atomic atomic => simp [opening_atomic atomic] at opening
  | object data => simp [opening_object data] at opening
  | enumeration data => simp [opening_enumeration data] at opening
  | array data => simp [opening_array data] at opening
  | map data => simp [opening_map data] at opening

/-- A legible value that begins with an angle is an object. -/
theorem object_of_opening (legible : value.Legible) (opening : value.opening = some '<') :
    ∃ handle, value.data = .object handle ∧ '>' ∉ handle.typeTag.toList := by
  cases legible with
  | object data isClosed => exact ⟨_, data, isClosed⟩
  | string data => simp [opening_string data] at opening
  | atomic atomic => simp [opening_atomic atomic] at opening
  | enumeration data => simp [opening_enumeration data] at opening
  | array data => simp [opening_array data] at opening
  | map data => simp [opening_map data] at opening

/-- A legible value that begins with a square bracket is an array. -/
theorem array_of_opening (legible : value.Legible) (opening : value.opening = some '[') :
    ∃ items, value.data = .collection ⟨items, none⟩ ∧ ∀ item ∈ items, item.Legible := by
  cases legible with
  | array data items => exact ⟨_, data, items⟩
  | string data => simp [opening_string data] at opening
  | atomic atomic => simp [opening_atomic atomic] at opening
  | enumeration data => simp [opening_enumeration data] at opening
  | object data => simp [opening_object data] at opening
  | map data => simp [opening_map data] at opening

/-- A legible value that begins with a brace is a map. -/
theorem map_of_opening (legible : value.Legible) (opening : value.opening = some '\x7b') :
    ∃ items index, value.data = .collection ⟨items, some index⟩ ∧
      index.map (·.2) = List.range items.length ∧ (∀ entry ∈ index, PlainKey entry.1) ∧
      ∀ item ∈ items, item.Legible := by
  cases legible with
  | map data positions keys items => exact ⟨_, _, data, positions, keys, items⟩
  | string data => simp [opening_string data] at opening
  | atomic atomic => simp [opening_atomic atomic] at opening
  | enumeration data => simp [opening_enumeration data] at opening
  | object data => simp [opening_object data] at opening
  | array data => simp [opening_array data] at opening

/-- A legible value that begins without a mark has no structure, or is an enumeration. -/
theorem plain_of_opening (legible : value.Legible) (opening : value.opening = none) :
    value.data.Atomic ∨ ∃ enumeration, value.data = .enumeration enumeration ∧
      PlainName enumeration.name ∧ ∀ entry ∈ enumeration.entries.entries, PlainKey entry.1 := by
  cases legible with
  | atomic atomic => exact .inl atomic
  | enumeration data plain keys => exact .inr ⟨_, data, plain, keys⟩
  | string data => simp [opening_string data] at opening
  | object data => simp [opening_object data] at opening
  | array data => simp [opening_array data] at opening
  | map data => simp [opening_map data] at opening

end Legible

/-! What texts of one kind show. -/

/-- An end is a mark. -/
theorem atStop_isMark {rest : List Char} (stops : AtStop isEnd rest) : AtStop isMark rest :=
  fun c isHead => isMark_of_isEnd (stops c isHead)

/-- A value without structure can be told from an enumeration. -/
theorem atomic_ne_enumeration {enumeration : Enumeration} {rest behind : List Char}
    (atomic : value.data.Atomic) (data : other.data = .enumeration enumeration)
    (plain : PlainName enumeration.name) (stops : AtStop isEnd rest) :
    value.shown.toList ++ rest ≠ other.shown.toList ++ behind := by
  intro same
  rw [shown_atomic atomic, shown_enumeration data, List.append_assoc] at same
  have rests := (cancel_stopped atomic.unmarked plain.unmarked (atStop_isMark stops)
    (atStop_cons (by decide)) same).2
  -- Behind the name stands a brace, and no end.
  have ends := stops '\x7b' (by rw [rests]; rfl)
  exact absurd ends (by decide)

/-- The texts of objects show their types. -/
theorem object_cancel {handle handle' : ObjectHandle} {rest behind : List Char}
    (data : value.data = .object handle) (data' : other.data = .object handle')
    (isClosed : '>' ∉ handle.typeTag.toList) (isClosed' : '>' ∉ handle'.typeTag.toList)
    (same : value.shown.toList ++ rest = other.shown.toList ++ behind) :
    handle.typeTag = handle'.typeTag := by
  have free : ∀ {text : List Char}, '>' ∉ text → ∀ c ∈ text, (c == '>') = false := by
    intro text isClosed c member
    refine beq_false_of_ne ?_
    rintro rfl
    exact isClosed member
  rw [shown_object data, shown_object data'] at same
  -- Both types end at their angles.
  have tags : handle.typeTag.toList ++ '>' :: rest = handle'.typeTag.toList ++ '>' :: behind := by
    simpa using same
  exact String.toList_injective (cancel_stopped (free isClosed) (free isClosed')
    (atStop_cons (by decide)) (atStop_cons (by decide)) tags).1

/-- The texts of enumerations show their names and their entries. -/
theorem enumeration_cancel {left right : Enumeration} {rest behind : List Char}
    (data : value.data = .enumeration left) (data' : other.data = .enumeration right)
    (plain : PlainName left.name) (plain' : PlainName right.name)
    (keys : ∀ entry ∈ left.entries.entries, PlainKey entry.1)
    (keys' : ∀ entry ∈ right.entries.entries, PlainKey entry.1)
    (same : value.shown.toList ++ rest = other.shown.toList ++ behind) :
    left.name = right.name ∧ enumerationParts left = enumerationParts right := by
  have begins : ∀ {enumeration : Enumeration},
      (∀ entry ∈ enumeration.entries.entries, PlainKey entry.1) →
      ∀ part ∈ enumerationParts enumeration, BeginsWithout '\x7d' part := by
    intro enumeration keys part isPart
    obtain ⟨entry, isEntry, rfl⟩ := List.mem_map.mp isPart
    exact (keys entry isEntry).begins _
  rw [shown_enumeration data, shown_enumeration data', List.append_assoc, List.append_assoc] at same
  -- The names end at their braces, behind which the entries are listed.
  obtain ⟨names, behinds⟩ := cancel_stopped plain.unmarked plain'.unmarked
    (atStop_cons (by decide)) (atStop_cons (by decide)) same
  obtain ⟨parts, -⟩ := closedList_cancel (by decide) (by decide) (separate_enumerationParts keys keys')
    (begins keys) (begins keys') (List.cons.inj behinds).2
  exact ⟨String.toList_injective names, parts⟩

/-- The texts of arrays show those of their elements. -/
theorem array_cancel {items items' : List Value} {rest behind : List Char}
    (data : value.data = .collection ⟨items, none⟩) (data' : other.data = .collection ⟨items', none⟩)
    (legible : ∀ item ∈ items, item.Legible) (legible' : ∀ item ∈ items', item.Legible)
    (separate : ∀ item ∈ items, ∀ item' ∈ items', Separate item.shown.toList item'.shown.toList)
    (same : value.shown.toList ++ rest = other.shown.toList ++ behind) :
    (items.map fun item => item.shown.toList) = items'.map fun item => item.shown.toList := by
  -- No element begins with the bracket that closes the array.
  have begins : ∀ {items : List Value}, (∀ item ∈ items, item.Legible) →
      ∀ part ∈ items.map fun item => item.shown.toList, BeginsWithout ']' part := by
    intro items legible part isPart
    obtain ⟨item, isItem, rfl⟩ := List.mem_map.mp isPart
    exact (legible item isItem).beginsWithout (by decide)
  rw [shown_array data, shown_array data'] at same
  refine (closedList_cancel (by decide) (by decide) ?_ (begins legible) (begins legible')
    (List.cons.inj same).2).1
  intro part isPart part' isPart'
  obtain ⟨item, isItem, rfl⟩ := List.mem_map.mp isPart
  obtain ⟨item', isItem', rfl⟩ := List.mem_map.mp isPart'
  exact separate item isItem item' isItem'

/-- The texts of maps show those of their entries. -/
theorem map_cancel {items items' : List Value} {index index' : List (String × Nat)}
    {rest behind : List Char} (data : value.data = .collection ⟨items, some index⟩)
    (data' : other.data = .collection ⟨items', some index'⟩)
    (positions : index.map (·.2) = List.range items.length)
    (positions' : index'.map (·.2) = List.range items'.length)
    (keys : ∀ entry ∈ index, PlainKey entry.1) (keys' : ∀ entry ∈ index', PlainKey entry.1)
    (separate : ∀ item ∈ items, ∀ item' ∈ items', Separate item.shown.toList item'.shown.toList)
    (same : value.shown.toList ++ rest = other.shown.toList ++ behind) :
    mapParts items index = mapParts items' index' := by
  -- No entry begins with the brace that closes the map.
  have begins : ∀ {items : List Value} {index : List (String × Nat)},
      (∀ entry ∈ index, PlainKey entry.1) →
      ∀ part ∈ mapParts items index, BeginsWithout '\x7d' part := by
    intro items index keys part isPart
    obtain ⟨entry, isEntry, item, _, rfl⟩ := mem_mapParts isPart
    exact (keys entry isEntry).begins _
  rw [shown_map data positions, shown_map data' positions'] at same
  exact (closedList_cancel (by decide) (by decide) (separate_mapParts keys keys' separate) (begins keys)
    (begins keys') (List.cons.inj same).2).1

/-- The text of a legible value can be told from that of each other one. -/
theorem Legible.separate (legible : value.Legible) : ∀ {other : Value}, other.Legible →
    Separate value.shown.toList other.shown.toList := by
  -- The induction is on the value on the left; how its text begins tells the kind of the other one.
  induction legible with
  | atomic atomic =>
    intro other legible' rest behind stops stops' same
    have opening := (Legible.atomic atomic).opening_eq legible' same
    rw [opening_atomic atomic] at opening
    rcases legible'.plain_of_opening opening.symm with atomic' | ⟨_, data, plain, _⟩
    · rw [shown_atomic atomic, shown_atomic atomic'] at same ⊢
      exact (cancel_stopped atomic.unmarked atomic'.unmarked (atStop_isMark stops)
        (atStop_isMark stops') same).1
    · exact absurd same (atomic_ne_enumeration atomic data plain stops)
  | string data =>
    intro other legible' rest behind _ _ same
    have opening := (Legible.string data).opening_eq legible' same
    rw [opening_string data] at opening
    obtain ⟨text, data'⟩ := legible'.string_of_opening opening.symm
    rw [shown_string data, shown_string data'] at same ⊢
    rw [(quoted_cancel same).1]
  | object data isClosed =>
    intro other legible' rest behind _ _ same
    have opening := (Legible.object data isClosed).opening_eq legible' same
    rw [opening_object data] at opening
    obtain ⟨handle, data', isClosed'⟩ := legible'.object_of_opening opening.symm
    rw [shown_object data, shown_object data', object_cancel data data' isClosed isClosed' same]
  | enumeration data plain keys =>
    intro other legible' rest behind stops stops' same
    have opening := (Legible.enumeration data plain keys).opening_eq legible' same
    rw [opening_enumeration data] at opening
    rcases legible'.plain_of_opening opening.symm with atomic' | ⟨_, data', plain', keys'⟩
    · exact absurd same.symm (atomic_ne_enumeration atomic' data plain stops')
    · obtain ⟨names, parts⟩ := enumeration_cancel data data' plain plain' keys keys' same
      rw [shown_enumeration data, shown_enumeration data', names, parts]
  | array data items ih =>
    intro other legible' rest behind _ _ same
    have opening := (Legible.array data items).opening_eq legible' same
    rw [opening_array data] at opening
    obtain ⟨items', data', legibles⟩ := legible'.array_of_opening opening.symm
    have parts := array_cancel data data' items legibles
      (fun item isItem item' isItem' => ih item isItem (legibles item' isItem')) same
    rw [shown_array data, shown_array data', parts]
  | map data positions keys items ih =>
    intro other legible' rest behind _ _ same
    have opening := (Legible.map data positions keys items).opening_eq legible' same
    rw [opening_map data] at opening
    obtain ⟨items', index', data', positions', keys', legibles⟩ := legible'.map_of_opening opening.symm
    have parts := map_cancel data data' positions positions' keys keys'
      (fun item isItem item' isItem' => ih item isItem (legibles item' isItem')) same
    rw [shown_map data positions, shown_map data' positions', parts]

end Value

end ScriptEngine

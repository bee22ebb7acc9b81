import ScriptEngine.Proofs.Text.Boundaries
import ScriptEngine.Value.Display

/-! What the text of a collection tells about its elements. An element ends in front of a comma or a
closing bracket, and its text shows where, so that the texts of the elements can be read off the text of
the collection one by one. -/

namespace ScriptEngine

open Text

/-- The characters by which the text of a collection shows its structure. -/
def marks : List Char := ['"', '[', ']', '\x7b', '\x7d', '<', '>', ',']

/-- Whether a character shows structure. -/
def isMark (c : Char) : Bool := marks.contains c

/-- Whether a character can stand behind an element of a collection. -/
def isEnd (c : Char) : Bool := [',', ']', '\x7d'].contains c

/-- What stands behind an element shows structure. -/
theorem isMark_of_isEnd {c : Char} (ends : isEnd c = true) : isMark c = true := by
  have all : [',', ']', '\x7d'].all isMark = true := by decide
  exact List.all_eq_true.mp all c (List.contains_iff_mem.mp ends)

/-- Two texts are the same if each of them stands in front of an end, and the whole texts are the same. -/
def Separate (left right : List Char) : Prop :=
  ∀ rest other, AtStop isEnd rest → AtStop isEnd other → left ++ rest = right ++ other → left = right

/-! Parts between brackets. -/

/-- What follows the first of the parts between brackets: the others, each behind a comma, and the closing
bracket. -/
def further (closer : Char) : List (List Char) → List Char
  | [] => [closer]
  | part :: rest => ',' :: ' ' :: (part ++ further closer rest)

/-- What follows an opening bracket: parts with commas between them, and the closing bracket. -/
def closedList (closer : Char) : List (List Char) → List Char
  | [] => [closer]
  | part :: rest => part ++ further closer rest

/-- The text between two brackets as characters. -/
theorem listText_toList (opener closer : Char) (parts : List String) :
    (listText opener.toString closer.toString parts).toList =
      opener :: closedList closer (parts.map String.toList) := by
  -- The parts are gone through with a comma and a blank in front of each but the first.
  have between : ∀ (rest : List (List Char)) (part : List Char),
      [',', ' '].intercalate (part :: rest) ++ [closer] = closedList closer (part :: rest) := by
    intro rest
    induction rest with
    | nil => simp [closedList, further]
    | cons next rest ih => simpa [closedList, further] using ih next
  cases parts with
  | nil => simp [listText, closedList]
  | cons part rest => simp [listText, String.toList_intercalate, ← between]

/-- A part that does not begin with a character. -/
def BeginsWithout (c : Char) (part : List Char) : Prop := ∃ first rest, part = first :: rest ∧ first ≠ c

variable {closer : Char}

/-- The parts behind the first one stand at an end. -/
theorem atStop_further (closes : isEnd closer = true) (parts : List (List Char)) (rest : List Char) :
    AtStop isEnd (further closer parts ++ rest) := by
  cases parts with
  | nil => exact atStop_cons closes
  | cons => exact atStop_cons (by decide)

/-- The parts behind the first one can be told from each other and from what follows. -/
theorem further_cancel (closes : isEnd closer = true) (noComma : closer ≠ ',')
    {left : List (List Char)} : ∀ {right : List (List Char)} {rest other : List Char},
    (∀ part ∈ left, ∀ part' ∈ right, Separate part part') →
    further closer left ++ rest = further closer right ++ other → left = right ∧ rest = other := by
  -- The induction goes along the parts on the left.
  induction left with
  | nil =>
    intro right rest other _ same
    cases right with
    | nil => exact ⟨rfl, (List.cons.inj same).2⟩
    | cons => exact absurd (List.cons.inj same).1 noComma
  | cons part left ih =>
    intro right rest other separate same
    cases right with
    | nil => exact absurd (List.cons.inj same).1.symm noComma
    | cons part' right =>
      -- Behind each part stands a comma or the closing bracket, so that both end at the same place.
      have behind : part ++ (further closer left ++ rest) = part' ++ (further closer right ++ other) := by
        simpa [further] using same
      have first : part = part' := separate part List.mem_cons_self part' List.mem_cons_self _ _
        (atStop_further closes left rest) (atStop_further closes right other) behind
      subst first
      obtain ⟨rfl, rests⟩ := ih (fun item isItem item' isItem' =>
        separate item (List.mem_cons_of_mem _ isItem) item' (List.mem_cons_of_mem _ isItem'))
        (List.append_cancel_left behind)
      exact ⟨rfl, rests⟩

/-- Parts between brackets can be told from each other and from what follows. -/
theorem closedList_cancel (closes : isEnd closer = true) (noComma : closer ≠ ',')
    {left right : List (List Char)} {rest other : List Char}
    (separate : ∀ part ∈ left, ∀ part' ∈ right, Separate part part')
    (begins : ∀ part ∈ left, BeginsWithout closer part)
    (begins' : ∀ part ∈ right, BeginsWithout closer part)
    (same : closedList closer left ++ rest = closedList closer right ++ other) :
    left = right ∧ rest = other := by
  -- An empty list closes where a part would begin.
  have closed : ∀ {part rest other : List Char}, BeginsWithout closer part →
      closer :: rest ≠ part ++ other := by
    rintro _ rest other ⟨first, tail, rfl, different⟩ same
    exact different (List.cons.inj same).1.symm
  cases left with
  | nil =>
    cases right with
    | nil => exact ⟨rfl, (List.cons.inj same).2⟩
    | cons part right =>
      rw [closedList, closedList, List.append_assoc] at same
      exact absurd same (closed (begins' part List.mem_cons_self))
  | cons part left =>
    cases right with
    | nil =>
      rw [closedList, closedList, List.append_assoc] at same
      exact absurd same.symm (closed (begins part List.mem_cons_self))
    | cons part' right =>
      -- Behind a comma the first part is one of the others.
      have all : further closer (part :: left) ++ rest = further closer (part' :: right) ++ other := by
        simpa [further, closedList] using same
      exact further_cancel closes noComma separate all

/-! Entries of maps. -/

/-- An entry as it is shown. -/
def shownEntry (key text : String) : String := key ++ ": " ++ text

/-- A key that shows where it ends, and that an entry begins with it. -/
structure PlainKey (key : String) : Prop where
  noColon : ':' ∉ key.toList
  noBrace : key.toList.head? ≠ some '\x7d'

/-- An entry as characters. -/
theorem shownEntry_toList (key text : String) :
    (shownEntry key text).toList = key.toList ++ ':' :: ' ' :: text.toList := by
  simp [shownEntry, String.toList_append]

/-- The key of an entry can be told from its text. -/
theorem shownEntry_cancel {left right text text' : String} {rest other : List Char}
    (isLeft : PlainKey left) (isRight : PlainKey right)
    (same : (shownEntry left text).toList ++ rest = (shownEntry right text').toList ++ other) :
    left = right ∧ text.toList ++ rest = text'.toList ++ other := by
  have free : ∀ {key : String}, PlainKey key → ∀ c ∈ key.toList, (c == ':') = false := by
    intro key plain c member
    refine beq_false_of_ne ?_
    rintro rfl
    exact plain.noColon member
  rw [shownEntry_toList, shownEntry_toList, List.append_assoc, List.append_assoc] at same
  -- The keys end at their colons.
  obtain ⟨keys, texts⟩ := cancel_stopped (free isLeft) (free isRight) (atStop_cons (by decide))
    (atStop_cons (by decide)) same
  refine ⟨String.toList_injective keys, ?_⟩
  simpa using texts

/-- An entry tells its key and its text. -/
theorem shownEntry_inj {left right text text' : String} (isLeft : PlainKey left) (isRight : PlainKey right)
    (same : (shownEntry left text).toList = (shownEntry right text').toList) :
    left = right ∧ text = text' := by
  obtain ⟨keys, texts⟩ := shownEntry_cancel isLeft isRight (congrArg (· ++ []) same)
  exact ⟨keys, String.toList_injective (by simpa using texts)⟩

/-- Entries with plain keys can be told from each other if their texts can. -/
theorem Separate.shownEntry {left right text text' : String} (isLeft : PlainKey left)
    (isRight : PlainKey right) (separate : Separate text.toList text'.toList) :
    Separate (shownEntry left text).toList (shownEntry right text').toList := by
  intro rest other stops stops' same
  obtain ⟨rfl, texts⟩ := shownEntry_cancel isLeft isRight same
  rw [shownEntry_toList, shownEntry_toList, separate rest other stops stops' texts]

/-- An entry with a plain key does not close a map. -/
theorem PlainKey.begins {key : String} (plain : PlainKey key) (text : String) :
    BeginsWithout '\x7d' (shownEntry key text).toList := by
  rw [shownEntry_toList]
  cases shown : key.toList with
  | nil => exact ⟨':', _, rfl, by decide⟩
  | cons first rest =>
    refine ⟨first, _, rfl, fun same => plain.noBrace ?_⟩
    rw [shown, same]
    rfl

end ScriptEngine

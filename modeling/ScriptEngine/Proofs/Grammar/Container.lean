import Mathlib.Data.List.Forall2
import Mathlib.Data.List.TakeWhile
import ScriptEngine.Proofs.Grammar.Meaning
import ScriptEngine.Proofs.Grammar.Spacing

/-! Array and map literals are taken apart at the commas and colons outside their literals and groups,
and their parts are evaluated one by one. -/

namespace ScriptEngine

open Cursor

variable {base : Engine} {file : String} {eval : Evaluator} {text rest : List Char} {cursor : Cursor}

/-- A text without white space at its ends is trimmed already. -/
theorem Text.trim_eq (starts : ∀ c, text.head? = some c → isBlank c = false)
    (ends : ∀ c, text.getLast? = some c → isBlank c = false) : trim text = text := by
  -- Trimming at the end is trimming of the reversed text at its start.
  have unchanged : ∀ text : List Char, (∀ c, text.head? = some c → isBlank c = false) →
      text.dropWhile isBlank = text := by
    intro text starts
    cases text with
    | nil => rfl
    | cons c text => exact List.dropWhile_cons_of_neg (by simp [starts c rfl])
  have reversed := unchanged text.reverse fun c head => ends c (by rwa [List.head?_reverse] at head)
  rw [trim, trimStart, unchanged text starts, trimEnd, reversed, List.reverse_reverse]

/-- A text that does not start with white space is not blank. -/
theorem Text.trim_ne_nil {c : Char} {tail : List Char} (solid : isBlank c = false) :
    trim (c :: tail) ≠ [] := by
  have start : trimStart (c :: tail) = c :: tail := List.dropWhile_cons_of_neg (by simp [solid])
  rw [trim, start, trimEnd]
  intro none
  rw [List.reverse_eq_nil_iff, List.dropWhile_eq_nil_iff] at none
  have blank := none c (by simp)
  rw [solid] at blank
  cases blank

/-- No operand starts with white space. -/
theorem Begins.solid (begins : Begins text) : ∃ c tail, text = c :: tail ∧ Text.isBlank c = false := by
  obtain ⟨c, tail, shape, starts⟩ := begins
  refine ⟨c, tail, shape, Bool.eq_false_iff.mpr fun blank => ?_⟩
  exact not_mem_of_none (by decide +kernel) starts (Text.mem_blanks blank)

/-! Texts with marks between them. -/

/-- Texts as they are listed, with a mark between them. -/
def listed (mark : Char) : List (List Char) → List Char
  | [] => []
  | [part] => part
  | part :: next :: parts => part ++ mark :: listed mark (next :: parts)

/-- Whether a mark, or the end of the group around it, ends a part. -/
def endsPart (mark c : Char) : Bool := c == mark || Canonical.isCloser c

/-- A text that is a part of its own: no mark is outside its groups and literals, and no white space is
at its ends. -/
structure IsPart (mark : Char) (part : List Char) : Prop where
  starts : ∃ c, part.head? = some c ∧ Text.isBlank c = false
  balanced : Balanced (endsPart mark) part
  trimmed : Text.trim part = part

/-- A search for the end of a part passes a balanced text. -/
theorem distanceTo?_endsPart {mark : Char} (balanced : Balanced (endsPart mark) text)
    (rest : List Char) :
    distanceTo? (text ++ rest) (headIs (endsPart mark)) =
      scan (fun depth here => depth == 0 && headIs (endsPart mark) here) .outside 0 text.length rest := by
  rw [← Nat.zero_add text.length]
  exact Nesting.scan_passes (fun c rest allowed _ => allowed) balanced 0 rest

/-- What is left without a mark is one part. -/
theorem splitParts_balanced {mark : Char} (balanced : Balanced (endsPart mark) text) :
    splitParts mark text = [Text.trim text] := by
  -- The search for the mark comes to the end of the text.
  have none : distanceTo? text (headIs (endsPart mark)) = Option.none := by
    have passed := distanceTo?_endsPart balanced []
    rwa [List.append_nil] at passed
  unfold endsPart at none
  rw [splitParts, none]
  simp only [Option.getD_none, List.take_length]
  split
  case h_1 => rfl
  case h_2 c rest more =>
    rw [List.drop_length] at more
    cases more

/-- The first part ends at the first mark. -/
theorem splitParts_marked {mark : Char} (balanced : Balanced (endsPart mark) text)
    (rest : List Char) :
    splitParts mark (text ++ mark :: rest) = Text.trim text :: splitParts mark rest := by
  have found : distanceTo? (text ++ mark :: rest) (headIs (endsPart mark)) = some text.length := by
    rw [distanceTo?_endsPart balanced]
    simp [scan, headIs, endsPart]
  unfold endsPart at found
  rw [splitParts, found]
  simp only [Option.getD_some, List.take_left]
  -- Behind the piece the mark is found, and the rest is split on its own.
  split
  case h_1 none =>
    rw [List.drop_left] at none
    cases none
  case h_2 c behind more =>
    rw [List.drop_left] at more
    cases more
    rw [if_pos rfl]

/-- The last part is all that is left. -/
theorem splitParts_last {mark : Char} {part : List Char} (isPart : IsPart mark part) :
    splitParts mark part = [part] := by
  rw [splitParts_balanced isPart.balanced, isPart.trimmed]

/-- Listed parts are found again. -/
theorem splitParts_listed {mark : Char} {parts : List (List Char)} (some : parts ≠ [])
    (each : ∀ part ∈ parts, IsPart mark part) : splitParts mark (listed mark parts) = parts := by
  -- The induction is on the parts; each but the last one ends at its mark.
  induction parts with
  | nil => exact absurd rfl some
  | cons part parts ih =>
    have isPart := each part List.mem_cons_self
    cases parts with
    | nil => exact splitParts_last isPart
    | cons next parts =>
      rw [listed, splitParts_marked isPart.balanced, isPart.trimmed,
        ih (by simp) fun part member => each part (List.mem_cons_of_mem _ member)]

/-- Listed parts start as the first of them does. -/
theorem listed_starts {mark : Char} {parts : List (List Char)} (filled : parts ≠ [])
    (each : ∀ part ∈ parts, IsPart mark part) :
    ∃ c, (listed mark parts).head? = some c ∧ Text.isBlank c = false := by
  -- The first part is there, whether others follow or not.
  cases parts with
  | nil => exact absurd rfl filled
  | cons part parts =>
    obtain ⟨c, head, solid⟩ := (each part List.mem_cons_self).starts
    refine ⟨c, ?_, solid⟩
    cases parts with
    | nil => exact head
    | cons next parts => simp [listed, List.head?_append, head]

/-- The listed parts of a text are found again. -/
theorem splitTopLevel_listed {mark : Char} {parts : List (List Char)}
    (each : ∀ part ∈ parts, IsPart mark part) : splitTopLevel (listed mark parts) mark = parts := by
  by_cases filled : parts = []
  · rw [filled]
    rfl
  · -- The text is not blank, and so it is split.
    obtain ⟨c, head, solid⟩ := listed_starts filled each
    obtain ⟨tail, shape⟩ := List.head?_eq_some_iff.mp head
    have inhabited : (Text.trim (listed mark parts)).isEmpty = false := by
      rw [shape]
      simpa using Text.trim_ne_nil solid
    rw [splitTopLevel, inhabited]
    exact splitParts_listed filled each

/-! The texts of values and of map entries. -/

/-- A text that can be listed as the text of a value. -/
structure Item (text : List Char) : Prop where
  starts : ∃ c, text.head? = some c ∧ Text.isBlank c = false
  ends : ∃ c, text.getLast? = some c ∧ Text.isBlank c = false ∧ Canonical.endsNoKeyword c = true
  balanced : Balanced endsAnyOperand text

namespace Item

/-- No white space is at the ends of the text. -/
theorem trimmed (item : Item text) : Text.trim text = text := by
  obtain ⟨first, head, solid⟩ := item.starts
  obtain ⟨last, tail, solidToo, _⟩ := item.ends
  -- Neither of the two ends is blank.
  refine Text.trim_eq (fun c starts => ?_) fun c ends => ?_
  · rw [head] at starts
    cases starts
    exact solid
  · rw [tail] at ends
    cases ends
    exact solidToo

/-- No keyword that keeps a space ends the text. -/
theorem closed (item : Item text) :
    ∀ c, text.getLast? = some c → Canonical.endsNoKeyword c = true := by
  obtain ⟨last, tail, _, ends⟩ := item.ends
  intro c same
  rw [tail] at same
  cases same
  exact ends

/-- The text is a part between commas, and between colons. -/
theorem isPart (item : Item text) {mark : Char} (separates : mark ∈ [',', ':']) : IsPart mark text := by
  refine ⟨item.starts, item.balanced.mono fun c ends => ?_, item.trimmed⟩
  simp only [List.mem_cons, List.not_mem_nil, or_false] at separates
  simp only [endsPart, Bool.or_eq_true, beq_iff_eq] at ends
  rcases ends with rfl | closes
  · rcases separates with rfl | rfl <;> decide
  · simp [endsAnyOperand, endsOperand, closes]

end Item

/-- The text of a key: a literal between double quotes. -/
def keyText (key : String) : List Char :=
  '"' :: ((literalPieces key.toList).flatMap Piece.text ++ ['"'])

/-- The text of an entry of a map. -/
def entryText (entry : String × List Char) : List Char := keyText entry.1 ++ ':' :: entry.2

/-- A quote ends the text of a key. -/
theorem getLast?_keyText (key : String) : (keyText key).getLast? = some '"' := by
  simp [keyText, List.getLast?_cons]

/-- The text of a key can be listed. -/
theorem keyText_item (key : String) : Item (keyText key) where
  starts := ⟨'"', rfl, by decide⟩
  ends := ⟨'"', getLast?_keyText key, by decide, by decide⟩
  balanced := balanced_literal _

/-- A colon is avoided by no part between commas. -/
theorem balanced_colon : Balanced (endsPart ',') [':'] := by decide

/-- An entry is a part between commas. -/
theorem entryText_isPart {entry : String × List Char} (item : Item entry.2) :
    IsPart ',' (entryText entry) := by
  have separates : ',' ∈ [',', ':'] := by decide
  have key := ((keyText_item entry.1).isPart separates).balanced
  have value := (item.isPart separates).balanced
  refine ⟨⟨'"', rfl, by decide⟩, ?_, Text.trim_eq (fun c starts => ?_) fun c ends => ?_⟩
  · -- The key, the colon and the value avoid the mark one behind the other.
    have whole := key.append (balanced_colon.append value)
    rwa [List.singleton_append] at whole
  · cases starts
    decide
  · obtain ⟨last, tail, solid, _⟩ := item.ends
    rw [entryText, List.getLast?_append, List.getLast?_cons, tail] at ends
    cases ends
    exact solid

/-- An entry is taken apart at its colon. -/
theorem splitTopLevel_entryText {entry : String × List Char} (item : Item entry.2) :
    splitTopLevel (entryText entry) ':' = [keyText entry.1, entry.2] := by
  have found : splitTopLevel (listed ':' [keyText entry.1, entry.2]) ':' = _ :=
    splitTopLevel_listed ?_
  · exact found
  -- The key and the value are parts of what is listed.
  intro part member
  simp only [List.mem_cons, List.not_mem_nil, or_false] at member
  rcases member with rfl | rfl
  · exact (keyText_item entry.1).isPart (by decide)
  · exact item.isPart (by decide)

/-- The key of an entry is read. -/
theorem readKey_keyText (cursor : Cursor) (key : String) : readKey cursor (keyText key) = .ok key := by
  have shape : (cursor.child (keyText key)).rest =
      '"' :: ((literalPieces key.toList).flatMap Piece.text ++ '"' :: []) := rfl
  have read := readString_text (literalPieces key.toList) shape
  rw [content_literalPieces, String.ofList_toList] at read
  -- The key is read from a text of its own.
  have starts : readKey cursor (keyText key) =
      (cursor.child (keyText key)).readString >>= fun found => pure found.1 := rfl
  rw [starts, read]
  rfl

/-! Parts in brackets. -/

/-- Listed texts are balanced where nothing is to be avoided if each is. -/
theorem listed_balanced {parts : List (List Char)} (each : ∀ part ∈ parts, IsPart ',' part) :
    Balanced nothing (listed ',' parts) := by
  -- The induction is on the parts.
  induction parts with
  | nil => rfl
  | cons part parts ih =>
    have first := (each part List.mem_cons_self).balanced.lax
    cases parts with
    | nil => exact first
    | cons next parts =>
      have comma : Balanced nothing [','] := by decide
      have others := ih fun part member => each part (List.mem_cons_of_mem _ member)
      have whole := first.append (comma.append others)
      rwa [List.singleton_append] at whole

/-- The elements of an array are evaluated one by one. -/
theorem evaluateElements_settles {site : Site} {parts : List (List Char)} {values : List Value}
    (each : List.Forall₂ (fun part value => Settles base (evaluateText eval site part) (.ok value))
      parts values) : Settles base (evaluateElements eval site parts) (.ok values) := by
  induction each with
  | nil => exact .pure base []
  | @cons part value parts values first _ ih =>
    have element : Settles base (evaluateAs eval .element site part) (.ok value) :=
      first.bind_ok (.use base .element value)
    exact element.bind_ok (ih.bind_ok (.pure base _))

/-- The entries of a map are evaluated one by one. -/
theorem evaluateEntries_settles {parts : List (String × List Char)} {entries : List (String × Value)}
    (each : List.Forall₂ (fun part entry => part.1 = entry.1 ∧ Item part.2 ∧
      Settles base (evaluateText eval cursor.site part.2) (.ok entry.2)) parts entries) :
    Settles base (evaluateEntries eval cursor (parts.map entryText)) (.ok entries) := by
  -- The induction is on the entries that stand side by side with their texts.
  induction each with
  | nil => exact .pure base []
  | @cons part entry parts entries first _ ih =>
    obtain ⟨same, item, evaluates⟩ := first
    have value : Settles base (evaluateAs eval .entry cursor.site part.2) (.ok entry.2) :=
      evaluates.bind_ok (.use base .entry entry.2)
    have key : Settles base (Eval.ofRead (readKey cursor (keyText part.1))) (.ok part.1) := by
      rw [readKey_keyText]
      exact .pure base _
    rw [List.map_cons, evaluateEntries]
    simp only [splitTopLevel_entryText item]
    -- Key and value are read in turn, and then the other entries.
    refine key.bind_ok (value.bind_ok (ih.bind_ok ?_))
    rw [same]
    exact .pure base _

/-- An array literal is an operand. -/
theorem evaluatePrimary_array (balanced : Balanced nothing text)
    (shape : cursor.rest = '[' :: (text ++ ']' :: rest)) :
    evaluatePrimary eval cursor = do
      let elements ← evaluateElements eval (cursor.advanceBy (text.length + 2)).site
        (splitTopLevel text ',')
      return (.array elements, none, cursor.advanceBy (text.length + 2)) := by
  have current : cursor.current = some '[' := by rw [current, shape]; rfl
  have read : cursor.readBalanced '[' ']' = .ok (text, cursor.advanceBy (text.length + 2)) :=
    readBalanced_text rfl balanced shape
  unfold evaluatePrimary
  simp only [skipSpaces_cons shape (by decide), current, read]
  rfl

/-- A map literal is an operand. -/
theorem evaluatePrimary_map (balanced : Balanced nothing text)
    (shape : cursor.rest = '{' :: (text ++ '}' :: rest)) :
    evaluatePrimary eval cursor = do
      let entries ← evaluateEntries eval (cursor.advanceBy (text.length + 2)) (splitTopLevel text ',')
      return (.map entries, none, cursor.advanceBy (text.length + 2)) := by
  have current : cursor.current = some '{' := by rw [current, shape]; rfl
  have read : cursor.readBalanced '{' '}' = .ok (text, cursor.advanceBy (text.length + 2)) :=
    readBalanced_text rfl balanced shape
  unfold evaluatePrimary
  simp only [skipSpaces_cons shape (by decide), current, read]
  rfl

/-- The arguments of a call are those of the text that was read in its parentheses. -/
theorem readArgs_read {behind : Cursor} (tight : cursor.skipSpaces = cursor)
    (opened : cursor.current = some '(') (read : cursor.readBalanced '(' ')' = .ok (text, behind)) :
    readArgs eval cursor = do
      return (← evaluateArgs eval behind.site (splitTopLevel text ','), behind) := by
  unfold readArgs
  simp only [tight, opened, if_true, read, Eval.ofRead, pure_bind]

/-- Listed arguments in parentheses are read one by one. -/
theorem readArgs_listed {parts : List (List Char)} (areParts : ∀ part ∈ parts, IsPart ',' part)
    (shape : cursor.rest = '(' :: (listed ',' parts ++ ')' :: rest)) :
    readArgs eval cursor = do
      return (← evaluateArgs eval (cursor.advanceBy ((listed ',' parts).length + 2)).site parts,
        cursor.advanceBy ((listed ',' parts).length + 2)) := by
  have opened : cursor.current = some '(' := by rw [current, shape]; rfl
  have read := readBalanced_text rfl (listed_balanced areParts) shape
  rw [readArgs_read (skipSpaces_cons shape (by decide)) opened read, splitTopLevel_listed areParts]

end ScriptEngine

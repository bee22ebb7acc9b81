import ScriptEngine.Proofs.Grammar.Numeral
import ScriptEngine.Proofs.Step

/-! An operand without signs is read up to its end, as the value that it denotes. -/

namespace ScriptEngine

open Cursor

variable {eval : Evaluator} {cursor : Cursor} {rest text : List Char} {level : Nat}

namespace Cursor

/-- Steps forward add up. -/
@[simp]
theorem advanceBy_advanceBy (cursor : Cursor) (first second : Nat) :
    (cursor.advanceBy first).advanceBy second = cursor.advanceBy (first + second) :=
  eq_of_rest (by simp) (by simp)

/-- Without a step nothing changes. -/
@[simp]
theorem advanceBy_zero (cursor : Cursor) : cursor.advanceBy 0 = cursor := eq_of_rest (by simp) (by simp)

/-- Behind a text stands the rest. -/
theorem rest_advanceBy (shape : cursor.rest = text ++ rest) :
    (cursor.advanceBy text.length).rest = rest := by
  rw [advanceBy_rest, shape, List.drop_left]

end Cursor

/-- What stands behind an operand goes on with none of its tokens, and is no step. -/
theorem Stops.clear (stops : Stops level rest) {c : Char} (head : rest.head? = some c) :
    c ∉ [' ', '[', '.', '(', 'e', 'E'] ∧ c.isDigit = false ∧ Text.isWordChar c = false := by
  have all : stoppers.all (fun c => !([' ', '[', '.', '(', 'e', 'E'].contains c) &&
      !c.isDigit && !Text.isWordChar c) = true := by decide
  simpa [and_assoc] using List.all_eq_true.mp all c (stops.head c head)

/-- A number literal ends where an operand does. -/
theorem Stops.endsNumeral (stops : Stops level rest) : EndsNumeral rest := by
  refine ⟨fun c head => (stops.clear head).2.1, fun c head => ?_⟩
  have clear := (stops.clear head).1
  simp only [List.mem_cons, List.not_mem_nil, or_false, not_or] at clear
  exact ⟨clear.2.2.1, clear.2.2.2.2.1, clear.2.2.2.2.2⟩

/-- Spaces are not skipped behind an operand. -/
theorem Stops.skipSpaces_eq (stops : Stops level cursor.rest) : cursor.skipSpaces = cursor :=
  Cursor.skipSpaces_eq fun head => (stops.clear head).1 (by decide)

/-- No spaces are skipped in front of an operand. -/
theorem Begins.skipSpaces_eq (begins : Begins text) (shape : cursor.rest = text ++ rest) :
    cursor.skipSpaces = cursor := by
  obtain ⟨c, tail, rfl, starts⟩ := begins
  exact skipSpaces_cons shape (startsOperand_ne_space starts)

/-! Number and string literals. -/

/-- A number literal is read. -/
theorem readNumber_text (numeral : Numeral) (shape : cursor.rest = numeral.text ++ rest)
    (stops : Stops level rest) :
    cursor.readNumber = .ok (numeral.value, cursor.advanceBy numeral.text.length) := by
  unfold readNumber
  dsimp only
  rw [shape, numeral.literalLength_text stops.endsNumeral, List.take_left, numeral.parse?_text]

/-- A string literal is read. -/
theorem readString_text (pieces : List Piece)
    (shape : cursor.rest = '"' :: (pieces.flatMap Piece.text ++ '"' :: rest)) :
    cursor.readString = .ok (String.ofList (pieces.flatMap Piece.content),
      cursor.advanceBy ((pieces.flatMap Piece.text).length + 2)) := by
  have here : cursor.skipSpaces = cursor := skipSpaces_cons shape (by decide)
  have starts : cursor.current = some '"' := by rw [current, shape]; rfl
  have inside : cursor.advance.rest = pieces.flatMap Piece.text ++ '"' :: rest := by
    rw [advance_rest, shape]
    rfl
  unfold readString expect
  -- The pieces are read up to the quote behind them.
  simp only [here, starts, if_true, ok_bind, inside, literalContent?_pieces]
  have length : 1 + ((pieces.flatMap Piece.text).length + 1) =
      (pieces.flatMap Piece.text).length + 2 := by
    omega
  rw [advance, advanceBy_advanceBy, length]
  rfl

/-- A group in brackets is read. -/
theorem readBalanced_text {opener closer : Char} (matched : Canonical.closer? opener = some closer)
    (balanced : Balanced nothing text) (shape : cursor.rest = opener :: (text ++ closer :: rest)) :
    cursor.readBalanced opener closer = .ok (text, cursor.advanceBy (text.length + 2)) := by
  -- What is to be known of brackets holds of each pair.
  obtain ⟨solid, closes⟩ : opener ≠ ' ' ∧ Canonical.isCloser closer = true := by
    unfold Canonical.closer? at matched
    split at matched <;> cases matched <;> decide
  have current : cursor.current = some opener := by rw [current, shape]; rfl
  have inside : cursor.advance.rest = text ++ closer :: rest := by rw [advance_rest, shape]; rfl
  -- The first bracket that closes nothing in the text is the one behind it.
  have found : distanceTo? cursor.advance.rest (headIs (· == closer)) = some text.length := by
    have passes : scan (fun depth here => depth == 0 && headIs (· == closer) here) .outside 0 0
          (text ++ closer :: rest) =
        scan (fun depth here => depth == 0 && headIs (· == closer) here) .outside 0 (0 + text.length)
          (closer :: rest) := by
      refine Nesting.scan_passes (fun c rest _ open_ => ?_) balanced 0 _
      refine beq_eq_false_iff_ne.mpr ?_
      rintro rfl
      rw [closes] at open_
      cases open_
    rw [inside]
    refine passes.trans ?_
    simp [scan, headIs]
  unfold readBalanced
  simp only [skipSpaces_cons shape solid, current, if_true, found]
  rw [inside, List.take_left, advance, advanceBy_advanceBy]
  have length : 1 + (text.length + 1) = text.length + 2 := by omega
  rw [length]

/-! Names. -/

/-- A word is read up to what belongs to no word. -/
theorem readToken_text {word : List Char} (identifier : Text.isIdentifier word = true)
    (shape : cursor.rest = word ++ rest) (ends : ∀ c, rest.head? = some c → Text.isWordChar c = false) :
    cursor.readToken = (String.ofList word, cursor.advanceBy word.length) := by
  have all : ∀ c ∈ word, Text.isWordChar c = true := fun c => Text.isWordChar_of_identifier identifier
  have tight : cursor.rest.head? ≠ some ' ' := by
    rw [shape]
    cases word with
    | nil => cases identifier
    | cons c others =>
      intro head
      have blank : c = ' ' := Option.some.inj head
      have word := all c List.mem_cons_self
      rw [blank] at word
      exact absurd word (by decide)
  -- The word is as long as its characters go on.
  have taken : cursor.rest.takeWhile Text.isWordChar = word := by
    rw [shape, List.takeWhile_append_of_pos all]
    cases rest with
    | nil => simp
    | cons c others => simp [List.takeWhile, ends c rfl]
  unfold readToken
  rw [skipSpaces_eq tight]
  dsimp only
  rw [taken]

/-- Behind a word of a name stands a point, or what belongs to no word. -/
theorem membersText_head (members : List Word) (stops : Stops level rest) :
    ∀ c, (Name.membersText members ++ rest).head? = some c → Text.isWordChar c = false := by
  intro c head
  cases members with
  | nil => exact (stops.clear head).2.2
  | cons member others =>
    cases head
    decide

/-- The members of a namespace are read up to the end of the name. -/
theorem readMembers_text {symbols : SymbolTable} (members : List Word) {scope : List Char} {count : Nat}
    (qualifies : Name.Qualifies symbols scope members)
    (shape : cursor.rest = Name.membersText members ++ rest) (stops : Stops level rest)
    (enough : members.length ≤ count) :
    cursor.readMembers symbols count (String.ofList scope) =
      (String.ofList (scope ++ Name.membersText members),
        cursor.advanceBy (Name.membersText members).length) := by
  -- The induction is on the words behind the points.
  induction members generalizing cursor scope count with
  | nil =>
    -- No point follows behind the last word.
    have plain : cursor.current ≠ some '.' := by
      rw [current, shape]
      exact fun head => (stops.clear head).1 (by decide)
    cases count with
    | zero => simp [readMembers, Name.membersText]
    | succ count => simp [readMembers, Name.membersText, plain]
  | cons member others ih =>
    cases count with
    | zero => cases enough
    | succ count =>
      have point : cursor.current = some '.' := by
        rw [current, shape]
        rfl
      have behindPoint : cursor.advance.rest = member.val ++ (Name.membersText others ++ rest) := by
        rw [advance_rest, shape]
        simp [Name.membersText]
      have word := readToken_text member.property behindPoint (membersText_head others stops)
      -- The name so far is the scope for the members behind.
      have joined : String.ofList scope ++ "." ++ String.ofList member.val =
          String.ofList (scope ++ '.' :: member.val) := by
        rw [← String.toList_inj]
        simp
      have behind := ih qualifies.2 (rest_advanceBy behindPoint) (Nat.le_of_succ_le_succ enough)
      have text : Name.membersText (member :: others) =
          '.' :: (member.val ++ Name.membersText others) := rfl
      -- Behind the point and the word the other members are read in the longer scope.
      rw [readMembers, if_pos ⟨point, qualifies.1⟩, word]
      dsimp only
      have length : 1 + (member.val.length + (Name.membersText others).length) =
          ('.' :: (member.val ++ Name.membersText others)).length := by
        simp only [List.length_cons, List.length_append]
        omega
      rw [joined, behind, text, advance, advanceBy_advanceBy, advanceBy_advanceBy, length,
        List.append_assoc]
      rfl

/-- Every member of a name takes a character. -/
theorem length_le_membersText (members : List Word) :
    members.length ≤ (Name.membersText members).length := by
  induction members with
  | nil => exact Nat.le_refl _
  | cons member others ih =>
    unfold Name.membersText at ih ⊢
    simp only [List.flatMap_cons, List.length_append, List.length_cons]
    omega

/-- A name is read with the namespaces in front of it. -/
theorem readQualified_text {symbols : SymbolTable} (name : Name)
    (qualifies : Name.Qualifies symbols name.first.val name.members)
    (shape : cursor.rest = name.text ++ rest) (stops : Stops level rest) :
    cursor.readQualified symbols = (String.ofList name.text, cursor.advanceBy name.text.length) := by
  have parts : cursor.rest = name.first.val ++ (Name.membersText name.members ++ rest) := by
    rw [shape, Name.text, List.append_assoc]
  have word := readToken_text name.first.property parts (membersText_head name.members stops)
  unfold readQualified
  rw [word]
  dsimp only
  -- The count of the reader is the length of the text, which has more characters than members.
  have enough : name.members.length ≤ (cursor.advanceBy name.first.val.length).left := by
    rw [left_eq_length, rest_advanceBy parts, List.length_append]
    exact Nat.le_trans (length_le_membersText name.members) (Nat.le_add_right _ _)
  rw [readMembers_text name.members qualifies (rest_advanceBy parts) stops enough, advanceBy_advanceBy]
  simp [Name.text]

/-! The operand at a cursor, without the steps behind it. -/

/-- What starts with no bracket and no quote is a number or a name. -/
theorem evaluatePrimary_plain {c : Char} (shape : cursor.rest = c :: rest)
    (plain : c ∉ [' ', '(', '"', '[', '{']) :
    evaluatePrimary eval cursor =
      if c.isDigit || (c == '.' && ((cursor.peek 1).map Char.isDigit).getD false) then do
        let number ← Eval.ofRead cursor.readNumber
        return (.number number.1, none, number.2)
      else if Text.isWordStart c then evaluateName eval cursor
      else Eval.refuse cursor (.unexpected c.toString) := by
  simp only [List.mem_cons, List.not_mem_nil, or_false, not_or] at plain
  have current : cursor.current = some c := by rw [current, shape]; rfl
  unfold evaluatePrimary
  rw [skipSpaces_cons shape plain.1]
  dsimp only
  -- Each other kind of operand starts with a character of its own.
  split
  case h_1 none => exact absurd (current.symm.trans none) nofun
  case h_2 other => exact absurd (Option.some.inj (current.symm.trans other)) plain.2.1
  case h_3 other => exact absurd (Option.some.inj (current.symm.trans other)) plain.2.2.1
  case h_4 other => exact absurd (Option.some.inj (current.symm.trans other)) plain.2.2.2.1
  case h_5 other => exact absurd (Option.some.inj (current.symm.trans other)) plain.2.2.2.2
  case h_6 =>
    cases current.symm.trans ‹_›
    rfl

/-- A number literal is an operand. -/
theorem evaluatePrimary_number (numeral : Numeral) (shape : cursor.rest = numeral.text ++ rest)
    (stops : Stops level rest) :
    evaluatePrimary eval cursor =
      pure (.number numeral.value, none, cursor.advanceBy numeral.text.length) := by
  obtain ⟨c, tail, starts, digital⟩ := numeral.head_eq
  have first : cursor.rest = c :: (tail ++ rest) := by rw [shape, starts]; rfl
  -- The literal starts as a number does.
  have numeric : (c.isDigit || (c == '.' && ((cursor.peek 1).map Char.isDigit).getD false)) = true := by
    rcases digital with digit | ⟨rfl, digit, others, rfl, second⟩
    · rw [digit, Bool.true_or]
    · simp [peek, first, second]
  -- It starts as none of the other operands does.
  have plain : c ∉ [' ', '(', '"', '[', '{'] := by
    rcases digital with digit | ⟨rfl, _⟩
    · exact not_mem_of_none (by decide) digit
    · decide
  rw [evaluatePrimary_plain first plain, if_pos numeric, readNumber_text numeral shape stops]
  rfl

/-- A string literal is an operand. -/
theorem evaluatePrimary_string (pieces : List Piece)
    (shape : cursor.rest = '"' :: (pieces.flatMap Piece.text ++ '"' :: rest)) :
    evaluatePrimary eval cursor =
      pure (.string (String.ofList (pieces.flatMap Piece.content)), none,
        cursor.advanceBy ((pieces.flatMap Piece.text).length + 2)) := by
  have current : cursor.current = some '"' := by rw [current, shape]; rfl
  unfold evaluatePrimary
  simp only [skipSpaces_cons shape (by decide), current, readString_text pieces shape]
  rfl

/-- An expression in brackets is evaluated as a text of its own. -/
theorem evaluatePrimary_enclosed (balanced : Balanced nothing text)
    (shape : cursor.rest = '(' :: (text ++ ')' :: rest)) :
    evaluatePrimary eval cursor = do
      let value ← evaluateText eval (cursor.advanceBy (text.length + 2)).site text
      return (value, none, cursor.advanceBy (text.length + 2)) := by
  have current : cursor.current = some '(' := by rw [current, shape]; rfl
  have read : cursor.readBalanced '(' ')' = .ok (text, cursor.advanceBy (text.length + 2)) :=
    readBalanced_text rfl balanced shape
  unfold evaluatePrimary
  simp only [skipSpaces_cons shape (by decide), current, read]
  rfl

/-- No digit starts a word. -/
theorem isDigit_of_wordStart {c : Char} (starts : Text.isWordStart c = true) : c.isDigit = false := by
  cases digit : c.isDigit with
  | false => rfl
  | true =>
    -- Digits are among the characters of ASCII, and no letters.
    have nine : '9'.val.toNat = 57 := rfl
    have zero : '0'.val.toNat = 48 := rfl
    simp only [Char.isDigit, Bool.and_eq_true, decide_eq_true_eq, UInt32.le_iff_toNat_le,
      ge_iff_le] at digit
    have small : c.toNat < 128 := by
      show c.val.toNat < 128
      omega
    have underscore : c ≠ '_' := by
      rintro rfl
      exact absurd digit.2 (by decide)
    have letter : c.isAlpha = true := by
      simpa [Text.isWordStart, Text.isAlphabetic, small, underscore] using starts
    unfold Char.isAlpha Char.isUpper Char.isLower at letter
    simp only [Bool.or_eq_true, Bool.and_eq_true, decide_eq_true_eq, UInt32.le_iff_toNat_le,
      ge_iff_le] at letter
    have capital : 'A'.val.toNat = 65 := rfl
    have lower : 'a'.val.toNat = 97 := rfl
    omega

/-- What starts with a letter or an underscore is a name. -/
theorem evaluatePrimary_word {word : List Char} (identifier : Text.isIdentifier word = true)
    (shape : cursor.rest = word ++ rest) : evaluatePrimary eval cursor = evaluateName eval cursor := by
  cases word with
  | nil => cases identifier
  | cons c others =>
    rw [Text.isIdentifier, Bool.and_eq_true] at identifier
    -- A word starts like no other operand.
    have clear : c ∉ ['.', ' ', '(', '"', '[', '{'] :=
      not_mem_of_none (by decide) identifier.1
    rw [List.mem_cons, not_or] at clear
    have other : ¬ (c.isDigit || (c == '.' && ((cursor.peek 1).map Char.isDigit).getD false)) = true := by
      simp [isDigit_of_wordStart identifier.1, clear.1]
    rw [evaluatePrimary_plain shape clear.2, if_neg other, if_pos identifier.1]

/-- A word that names a constant is an operand. -/
theorem evaluatePrimary_constant (literal : Constant) (shape : cursor.rest = literal.word.toList ++ rest)
    (stops : Stops level rest) :
    evaluatePrimary eval cursor =
      pure (literal.value, none, cursor.advanceBy literal.word.toList.length) := by
  have identifier : Text.isIdentifier literal.word.toList = true := by cases literal <;> decide
  have named : constant? literal.word = some literal.value := by cases literal <;> rfl
  have read := readToken_text identifier shape fun c head => (stops.clear head).2.2
  -- The word is read as a whole and looked up among the constants.
  rw [evaluatePrimary_word identifier shape]
  funext engine
  unfold evaluateName
  rw [Eval.get_bind, read]
  dsimp only
  rw [String.ofList_toList, named]

/-- The name of a variable is an operand. -/
theorem evaluatePrimary_named {engine : Engine} {value : Value} (name : Name)
    (shape : cursor.rest = name.text ++ rest) (stops : Stops level rest)
    (qualifies : Name.Qualifies engine.symbols name.first.val name.members)
    (bound : engine.resolve? (String.ofList name.text) cursor.file = some (.variable value)) :
    evaluatePrimary eval cursor engine =
      .finished (.ok (value, some { name := String.ofList name.text },
        cursor.advanceBy name.text.length)) engine := by
  have parts : cursor.rest = name.first.val ++ (Name.membersText name.members ++ rest) := by
    rw [shape, Name.text, List.append_assoc]
  have word := readToken_text name.first.property parts (membersText_head name.members stops)
  have whole := readQualified_text name qualifies shape stops
  have file : (cursor.advanceBy name.text.length).file = cursor.file := by simp [Cursor.file]
  -- The first word is no constant, and the name with its members is bound.
  rw [evaluatePrimary_word name.first.property parts]
  unfold evaluateName
  rw [Eval.get_bind, word]
  dsimp only
  rw [name.free]
  dsimp only
  rw [whole]
  dsimp only
  rw [file, bound]
  rfl

/-- There is no step behind an operand that ends. -/
theorem evaluateSteps_stops {value : Value} {place : Option Place} (stops : Stops level cursor.rest)
    (count : Nat) : evaluateSteps eval (count + 1) (value, place, cursor) = pure (value, cursor) := by
  have bracket : cursor.current ≠ some '[' := fun head => (stops.clear head).1 (by decide)
  have property : cursor.startsProperty = false := by
    have point : cursor.current ≠ some '.' := fun head => (stops.clear head).1 (by decide)
    simp [startsProperty, point]
  rw [evaluateSteps, if_neg bracket, property]
  rfl

end ScriptEngine

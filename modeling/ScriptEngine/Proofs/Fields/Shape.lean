import ScriptEngine.Proofs.Fields.Body

/-! How the bodies of methods look: how their texts begin and end, and what they keep inside groups. -/

namespace ScriptEngine

open Cursor

/-- A text that starts like an operand, without a sign in front of it. -/
def BeginsUnsigned (text : List Char) : Prop :=
  ∃ c tail, text = c :: tail ∧ startsOperand c = true ∧ c ≠ '!' ∧ c ≠ '-'

namespace BeginsUnsigned

variable {text : List Char}

/-- What stands behind a text does not change how it begins. -/
theorem append (begins : BeginsUnsigned text) (rest : List Char) : BeginsUnsigned (text ++ rest) := by
  obtain ⟨c, tail, rfl, starts⟩ := begins
  exact ⟨c, tail ++ rest, rfl, starts⟩

/-- A text without a sign begins like an operand. -/
theorem begins (begins : BeginsUnsigned text) : Begins text := by
  obtain ⟨c, tail, shape, starts, _⟩ := begins
  exact ⟨c, tail, shape, starts⟩

/-- A text in brackets begins without a sign. -/
theorem bracket {needed : Bool} (begins : BeginsUnsigned text) : BeginsUnsigned (bracket needed text) := by
  cases needed with
  | true => exact ⟨'(', text ++ [')'], rfl, rfl, by decide, by decide⟩
  | false => exact begins

end BeginsUnsigned

/-- The last character of a text is not blank. -/
def EndsSolid (text : List Char) : Prop := ∃ c, text.getLast? = some c ∧ Text.isBlank c = false

namespace EndsSolid

variable {text : List Char}

/-- What stands in front of a text does not change how it ends. -/
theorem prepend (ends : EndsSolid text) (before : List Char) : EndsSolid (before ++ text) := by
  obtain ⟨c, last, solid⟩ := ends
  exact ⟨c, by simp [List.getLast?_append, last], solid⟩

/-- A bracket is not blank. -/
theorem closed (text : List Char) : EndsSolid (text ++ [')']) := ⟨')', by simp, by decide⟩

/-- A text in brackets does not end with a blank. -/
theorem bracket {needed : Bool} (ends : EndsSolid text) : EndsSolid (bracket needed text) := by
  cases needed with
  | true => exact closed ('(' :: text)
  | false => exact ends

/-- Words and numbers contain no blanks. -/
theorem of_inert (begins : BeginsUnsigned text) (inert : ∀ c ∈ text, Text.isInert c = true ∨ c = '.') :
    EndsSolid text := by
  obtain ⟨c, tail, shape, _⟩ := begins
  have filled : text ≠ [] := by simp [shape]
  refine ⟨text.getLast filled, List.getLast?_eq_some_getLast filled, Bool.eq_false_iff.mpr fun blank => ?_⟩
  rcases inert _ (List.getLast_mem filled) with inert | point
  · exact Text.inert_clear inert (List.mem_append_right _ (Text.mem_blanks blank))
  · rw [point] at blank
    exact absurd blank (by decide)

end EndsSolid

/-! Words. -/

/-- A character outside of words ends the word in front of it. -/
theorem endsWord_cons {c : Char} (outside : Text.isWordChar c = false) (rest : List Char) :
    ∀ d, (c :: rest).head? = some d → Text.isWordChar d = false := by
  rintro d ⟨⟩
  exact outside

namespace Ident

/-- An identifier starts with a character that words start with. -/
theorem starts (ident : Ident) : ∃ c tail, ident.text = c :: tail ∧ Text.isWordStart c = true := by
  obtain ⟨text, identifier, free⟩ := ident
  cases text with
  | nil => cases identifier
  | cons c tail =>
    rw [Text.isIdentifier, Bool.and_eq_true] at identifier
    exact ⟨c, tail, rfl, identifier.1⟩

/-- The characters of an identifier are those of words. -/
theorem isWordChar (ident : Ident) : ∀ c ∈ ident.text, Text.isWordChar c = true :=
  fun _ => Text.isWordChar_of_identifier ident.identifier

/-- An identifier begins like an operand. -/
theorem begins (ident : Ident) : BeginsUnsigned ident.text := by
  have unsigned : ∀ c, (ident.text ++ []).head? = some c → c ≠ '!' ∧ c ≠ '-' :=
    fun c => Expr.identifier_unsigned ident.identifier
  obtain ⟨c, tail, shape, starts⟩ := ident.starts
  exact ⟨c, tail, shape, by simp [startsOperand, starts], unsigned c (by simp [shape])⟩

end Ident

namespace Access

variable (access : Access) (member : Ident)

/-- The characters of a member are those of words, and points. -/
theorem inert_text : ∀ c ∈ access.text member, Text.isWordChar c = true ∨ c = '.' := by
  intro c inner
  cases access with
  | bare => exact .inl (member.isWordChar c inner)
  | qualified =>
    rcases List.mem_append.mp inner with this | word
    · have all : "this.".toList.all (fun c => Text.isWordChar c || c == '.') = true := by decide
      simpa using List.all_eq_true.mp all c this
    · exact .inl (member.isWordChar c word)

/-- A member begins like an operand. -/
theorem begins : BeginsUnsigned (access.text member) := by
  cases access with
  | bare => exact member.begins
  | qualified => exact ⟨'t', _, rfl, by decide, by decide, by decide⟩

/-- A member contains nothing that separates operands. -/
theorem balanced : Balanced endsAnyOperand (access.text member) := by
  refine balanced_of_clear fun c inner => ?_
  rcases access.inert_text member c inner with word | rfl
  · exact separators_clear (.inr word)
  · decide

/-- A member does not end with a blank. -/
theorem endsSolid : EndsSolid (access.text member) := by
  refine .of_inert (access.begins member) fun c inner => ?_
  exact (access.inert_text member c inner).imp_left fun word => by simp [Text.isInert, word]

/-- A member contains no equals sign. -/
theorem no_equals : '=' ∉ access.text member := by
  intro inner
  rcases access.inert_text member '=' inner with word | point
  · exact absurd word (by decide)
  · exact absurd point (by decide)

end Access

/-! Expressions. -/

/-- A number literal begins without a sign. -/
theorem Numeral.beginsUnsigned (numeral : Numeral) : BeginsUnsigned numeral.text := by
  obtain ⟨c, tail, shape, digital⟩ := numeral.head_eq
  rcases digital with digit | ⟨rfl, _⟩
  · have clear : c ∉ ['!', '-'] := not_mem_of_none (by decide) digit
    simp only [List.mem_cons, List.not_mem_nil, or_false, not_or] at clear
    exact ⟨c, tail, shape, by simp [startsOperand, digit], clear⟩
  · exact ⟨'.', tail, shape, rfl, by decide, by decide⟩

/-- A text that names no parameter in front of itself: what stands behind its first word starts with no
equals sign alone. -/
def Unnamed (text : List Char) : Prop :=
  ∀ rest, text.dropWhile Text.isWordChar = '=' :: rest → rest.head? = some '='

namespace Unnamed

variable {text rest : List Char}

/-- An argument that names no parameter is all expression. -/
theorem splitNamed_eq (unnamed : Unnamed text) : splitNamed text = (none, text) := by
  unfold splitNamed
  dsimp only
  split
  case h_1 rest behind =>
    have double := unnamed rest behind
    simp [double]
  case h_2 => rfl

/-- A text without an equals sign names no parameter. -/
theorem of_clear (clear : '=' ∉ text) : Unnamed text := by
  intro rest dropped
  have inner : '=' ∈ text := (List.dropWhile_sublist _).subset (dropped ▸ List.mem_cons_self)
  exact absurd inner clear

/-- What starts with a character that is none of a word and no equals sign names no parameter. -/
theorem of_head {c : Char} (outside : Text.isWordChar c = false) (other : c ≠ '=') (tail : List Char) :
    Unnamed (c :: tail) := by
  intro rest dropped
  rw [List.dropWhile_cons_of_neg (by simp [outside])] at dropped
  cases dropped
  exact absurd rfl other

/-- Two texts of which none names a parameter name none together. -/
theorem append (first : Unnamed text) (second : Unnamed rest) : Unnamed (text ++ rest) := by
  intro behind dropped
  -- The word ends inside of the first text, or goes on into the second one.
  rw [List.dropWhile_append] at dropped
  split at dropped
  · exact second behind dropped
  case isFalse reached =>
    cases shape : text.dropWhile Text.isWordChar with
    | nil => simp [shape] at reached
    | cons c tail =>
      rw [shape, List.cons_append, List.cons.injEq] at dropped
      obtain ⟨rfl, rfl⟩ := dropped
      rw [List.head?_append, first tail shape, Option.some_or]

/-- An operator in front of its operand names no parameter. -/
theorem symbol (operator : Operator) (rest : List Char) :
    Unnamed (operator.symbol.toList ++ rest) := by
  cases operator with
  | or | and => exact .of_head (by decide) (by decide) _
  | binary op =>
    cases op with
    | equal =>
      -- The first of two equals signs has the other behind it.
      intro behind dropped
      have outside : Text.isWordChar '=' = false := by decide
      change ('=' :: '=' :: rest).dropWhile Text.isWordChar = _ at dropped
      rw [List.dropWhile_cons_of_neg (by simp [outside])] at dropped
      cases dropped
      rfl
    | _ => exact .of_head (by decide) (by decide) _

end Unnamed

namespace MethodExpr

/-- An expression begins like an operand. -/
theorem begins : ∀ expr : MethodExpr, BeginsUnsigned expr.text
  | number numeral => numeral.beginsUnsigned
  | argument name => name.begins
  | field access name => access.begins name
  | call access method _ => (access.begins method).append _
  | join _ left _ => (left.begins.bracket).append _

/-- An expression does not end with a blank. -/
theorem endsSolid : ∀ expr : MethodExpr, EndsSolid expr.text
  | number numeral => .of_inert numeral.beginsUnsigned fun c inner =>
      .inl (by simp [Text.isInert, Numeral.mem_text inner])
  | argument name => .of_inert name.begins fun c inner => .inl (by simp [Text.isInert, name.isWordChar c inner])
  | field access name => access.endsSolid name
  | call access method args => by
    have shape : text (call access method args) =
        (access.text method ++ '(' :: listed ',' (texts args)) ++ [')'] := by simp [text]
    rw [shape]
    exact .closed _
  | join _ _ right => ((right.endsSolid.bracket).prepend _).prepend _

/-- An expression names no parameter. -/
theorem unnamed : ∀ expr : MethodExpr, Unnamed expr.text
  | number numeral => .of_clear fun inner => absurd (Numeral.mem_text inner) (by decide)
  | argument name => .of_clear fun inner => absurd (name.isWordChar _ inner) (by decide)
  | field access name => .of_clear (access.no_equals name)
  | call access method args =>
    .append (.of_clear (access.no_equals method)) (.of_head (by decide) (by decide) _)
  | join operator left right => by
    refine .append ?_ (.symbol operator _)
    -- A bracket in front names nothing, and without one the left side stands there.
    unfold bracket
    split
    · exact .of_head (by decide) (by decide) _
    · exact left.unnamed

mutual

/-- What ends the operands of a level stands in an expression of that level only inside groups. -/
theorem balanced : ∀ (expr : MethodExpr) {level : Nat}, level ≤ expr.level →
    Balanced (endsLevel level) expr.text
  | number numeral, _, _ => (balanced_of_clear fun _ inner =>
      separators_clear (.inl (Numeral.mem_text inner))).mono fun _ => endsAnyOperand_of
  | argument name, _, _ => (Access.balanced .bare name).mono fun _ => endsAnyOperand_of
  | field access name, _, _ => (access.balanced name).mono fun _ => endsAnyOperand_of
  | call access method args, level, _ => by
    have allowed : endsLevel level '(' = false := by simp [endsLevel]; decide
    have group : Balanced (endsLevel level) ('(' :: listed ',' (texts args) ++ [')']) :=
      (listed_balanced (isPart args)).group rfl allowed
    exact ((access.balanced method).mono fun _ => endsAnyOperand_of).append group
  | join operator left right, level, le => by
    have first : Balanced (endsLevel operator.precedence)
        (bracket (left.level < operator.precedence) left.text) := balanced_bracket left.balanced
    have second : Balanced (endsLevel (operator.precedence + 1))
        (bracket (right.level < operator.precedence + 1) right.text) := balanced_bracket right.balanced
    exact (first.mono fun _ => endsLevel_mono le).append ((balanced_symbol operator le).append
      (second.mono fun _ => endsLevel_mono (Nat.le_succ_of_le le)))

/-- Arguments can be listed. -/
theorem isPart : ∀ (args : List MethodExpr), ∀ part ∈ texts args, IsPart ',' part
  | [], _, member => by cases member
  | arg :: args, part, member => by
    rcases List.mem_cons.mp member with rfl | further
    · obtain ⟨c, tail, shape, solid⟩ := arg.begins.begins.solid
      obtain ⟨last, ends, solidToo⟩ := arg.endsSolid
      refine ⟨⟨c, by simp [shape], solid⟩, (arg.balanced (Nat.zero_le _)).mono fun c ends => ?_,
        Text.trim_eq (fun c head => ?_) fun c tail => ?_⟩
      · simp only [endsPart, Bool.or_eq_true, beq_iff_eq] at ends
        rcases ends with rfl | closes
        · decide
        · simp [endsLevel, endsOperand, closes]
      · rw [shape] at head
        cases head
        exact solid
      · rw [ends] at tail
        cases tail
        exact solidToo
    · exact isPart args part further

end

end MethodExpr

/-! Statements. -/

/-- The tokens of actions open and close nothing. -/
theorem balanced_token : ∀ action ∈ preludeActions, Balanced nothing action.token.toList := by
  decide

namespace MethodStatement

/-- A statement that gives a field a value. -/
theorem text_assign (access : Access) (field : Ident) (action : PreludeAction true) (value : MethodExpr) :
    (assign access field action value).text =
      access.text field ++ (action.val.token.toList ++ (value.text ++ [';'])) := rfl

/-- A statement that changes a field by an action alone. -/
theorem text_step (access : Access) (field : Ident) (action : PreludeAction false) :
    (step access field action).text = access.text field ++ (action.val.token.toList ++ [';']) := rfl

/-- A statement that gives a value back. -/
theorem text_giveBack (value : MethodExpr) :
    (giveBack value).text = "return".toList ++ ' ' :: (value.text ++ [';']) := rfl

/-- A statement that chooses between two blocks. -/
theorem text_branch (condition : MethodExpr) (yes no : List MethodStatement) :
    (branch condition yes no).text =
      "if".toList ++ '(' :: (condition.text ++ ')' :: '{' :: (allText yes ++ '}' ::
        ("else".toList ++ '{' :: (allText no ++ ['}'])))) := rfl

/-- A statement that repeats a block. -/
theorem text_loop (condition : MethodExpr) (body : List MethodStatement) :
    (loop condition body).text =
      "while".toList ++ '(' :: (condition.text ++ ')' :: '{' :: (allText body ++ ['}'])) := rfl

/-- A statement begins like an operand. -/
theorem begins : ∀ statement : MethodStatement, BeginsUnsigned statement.text
  | assign access field _ _ => (access.begins field).append _
  | step access field _ => (access.begins field).append _
  | giveBack _ => ⟨'r', _, rfl, by decide, by decide, by decide⟩
  | evaluate value => value.begins.append _
  | branch _ _ _ => ⟨'i', _, rfl, by decide, by decide, by decide⟩
  | loop _ _ => ⟨'w', _, rfl, by decide, by decide, by decide⟩

mutual

/-- A statement closes what it opens. -/
theorem balanced : ∀ statement : MethodStatement, Balanced nothing statement.text
  | assign access field action value =>
    (access.balanced field).lax.append ((balanced_token _ action.property.1).append
      ((value.balanced (Nat.zero_le _)).lax.append (by decide)))
  | step access field action =>
    (access.balanced field).lax.append ((balanced_token _ action.property.1).append (by decide))
  | giveBack value => by
    have word : Balanced nothing ("return".toList ++ [' ']) := by decide
    have semicolon : Balanced nothing [';'] := by decide
    have whole := word.append ((value.balanced (Nat.zero_le _)).lax.append semicolon)
    rw [text_giveBack]
    simpa only [List.append_assoc, List.cons_append, List.nil_append] using whole
  | evaluate value => (value.balanced (Nat.zero_le _)).lax.append (by decide)
  | branch condition yes no => by
    -- The condition is a group, and so is each of the blocks.
    have header : Balanced nothing ('(' :: condition.text ++ [')']) :=
      (condition.balanced (Nat.zero_le _)).lax.group rfl rfl
    have first : Balanced nothing ('{' :: allText yes ++ ['}']) := (allBalanced yes).group rfl rfl
    have second : Balanced nothing ('{' :: allText no ++ ['}']) := (allBalanced no).group rfl rfl
    have word : Balanced nothing "if".toList := by decide
    have other : Balanced nothing "else".toList := by decide
    have whole := word.append (header.append (first.append (other.append second)))
    rw [text_branch]
    simpa only [List.append_assoc, List.cons_append, List.nil_append] using whole
  | loop condition body => by
    have header : Balanced nothing ('(' :: condition.text ++ [')']) :=
      (condition.balanced (Nat.zero_le _)).lax.group rfl rfl
    have block : Balanced nothing ('{' :: allText body ++ ['}']) := (allBalanced body).group rfl rfl
    have word : Balanced nothing "while".toList := by decide
    have whole := word.append (header.append block)
    rw [text_loop]
    simpa only [List.append_assoc, List.cons_append, List.nil_append] using whole

/-- Statements close what they open. -/
theorem allBalanced : ∀ statements : List MethodStatement, Balanced nothing (allText statements)
  | [] => .nil
  | statement :: rest => statement.balanced.append (allBalanced rest)

end

end MethodStatement

end ScriptEngine

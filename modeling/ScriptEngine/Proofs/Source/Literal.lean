import ScriptEngine.Number.Text

/-! The parts of a number literal, and the characters that it consists of. -/

namespace ScriptEngine

/-- The characters of number literals. -/
def Cursor.isNumeral (c : Char) : Bool :=
  c.isDigit || c == '.' || c == 'e' || c == 'E' || c == '+' || c == '-'

namespace Number

open Cursor

/-- The length of the digits that a text starts with. -/
def digitsLength (text : List Char) : Nat := (text.takeWhile Char.isDigit).length

/-- Whether a text starts with a digit. -/
def startsDigit (text : List Char) : Bool := (text.head?.map Char.isDigit).getD false

/-- The length of the point that a text starts with and of the digits behind it. -/
def fractionLength (text : List Char) : Nat :=
  match text with
  | '.' :: rest => if startsDigit rest then 1 + digitsLength rest else 0
  | _ => 0

/-- The length of the sign that a text starts with. -/
def signLength (text : List Char) : Nat :=
  match text with
  | '+' :: _ => 1
  | '-' :: _ => 1
  | _ => 0

/-- The length of the exponent that a text starts with. -/
def exponentLength (text : List Char) : Nat :=
  match text with
  | mark :: rest =>
    if mark = 'e' ∨ mark = 'E' then
      let sign := signLength rest
      if startsDigit (rest.drop sign) then 1 + sign + digitsLength (rest.drop sign) else 0
    else 0
  | [] => 0

/-- A literal has three parts. -/
theorem literalLength_eq (text : List Char) :
    literalLength text =
      digitsLength text + fractionLength (text.drop (digitsLength text)) +
        exponentLength (text.drop (digitsLength text +
          fractionLength (text.drop (digitsLength text)))) := rfl

/-- The digits that are counted are characters of number literals. -/
theorem digits_numeral (text : List Char) :
    ∀ c ∈ text.take (digitsLength text), isNumeral c = true := by
  intro c member
  rw [digitsLength, ← List.prefix_iff_eq_take.mp (List.takeWhile_prefix Char.isDigit)] at member
  have digit : c.isDigit = true := List.all_eq_true.mp List.all_takeWhile c member
  simp [isNumeral, digit]

/-- The point and the digits behind it are characters of number literals. -/
theorem fraction_numeral (text : List Char) :
    ∀ c ∈ text.take (fractionLength text), isNumeral c = true := by
  intro c member
  -- Without a digit behind it the point does not count.
  unfold fractionLength at member
  split at member
  case h_1 rest =>
    split at member
    · rw [Nat.add_comm, List.take_succ_cons, List.mem_cons] at member
      rcases member with rfl | behind
      · rfl
      · exact digits_numeral rest c behind
    · cases member
  case h_2 => cases member

/-- The sign of an exponent is a character of number literals. -/
theorem sign_numeral (text : List Char) : ∀ c ∈ text.take (signLength text), isNumeral c = true := by
  intro c member
  unfold signLength at member
  split at member
  · obtain rfl : c = '+' := by simpa using member
    rfl
  · obtain rfl : c = '-' := by simpa using member
    rfl
  · cases member

/-- The exponent consists of characters of number literals. -/
theorem exponent_numeral (text : List Char) :
    ∀ c ∈ text.take (exponentLength text), isNumeral c = true := by
  intro c member
  unfold exponentLength at member
  split at member
  case h_1 mark rest =>
    split at member
    case isTrue marked =>
      dsimp only at member
      split at member
      · -- The mark, the sign and the digits are taken one behind the other.
        rw [Nat.add_assoc, Nat.add_comm, List.take_succ_cons, List.mem_cons, List.take_add,
          List.mem_append] at member
        rcases member with rfl | sign | digits
        · rcases marked with rfl | rfl <;> rfl
        · exact sign_numeral rest c sign
        · exact digits_numeral _ c digits
      · cases member
    case isFalse => cases member
  case h_2 => cases member

/-- A number literal consists of the characters of such literals. -/
theorem literalLength_numeral (text : List Char) :
    ∀ c ∈ text.take (literalLength text), isNumeral c = true := by
  intro c member
  rw [literalLength_eq, List.take_add, List.take_add, List.mem_append, List.mem_append] at member
  rcases member with (whole | fraction) | exponent
  · exact digits_numeral text c whole
  · exact fraction_numeral _ c fraction
  · exact exponent_numeral _ c exponent

end Number

end ScriptEngine

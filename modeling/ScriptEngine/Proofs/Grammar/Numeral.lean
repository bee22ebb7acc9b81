import ScriptEngine.Proofs.Grammar.Layout

/-! A number literal is read up to its end, as the number that it denotes. -/

namespace ScriptEngine

variable {rest tail : List Char}

/-- What follows does not start with a digit. -/
def NoDigit (rest : List Char) : Prop := ∀ c, rest.head? = some c → c.isDigit = false

/-- Digits are taken up to what is no digit. -/
theorem takeWhile_digits (digits : List Digit) (ends : NoDigit rest) :
    (digitsText digits ++ rest).takeWhile Char.isDigit = digitsText digits := by
  rw [List.takeWhile_append_of_pos fun c => isDigit_of_mem]
  cases rest with
  | nil => simp
  | cons c others => simp [List.takeWhile, ends c rfl]

/-- Behind the digits stands what is no digit. -/
theorem dropWhile_digits (digits : List Digit) (ends : NoDigit rest) :
    (digitsText digits ++ rest).dropWhile Char.isDigit = rest := by
  rw [List.dropWhile_append_of_pos fun c => isDigit_of_mem]
  cases rest with
  | nil => rfl
  | cons c others => simp [List.dropWhile, ends c rfl]

/-- What does not go on with a number literal: it starts with no digit, no point and no exponent. -/
def EndsNumeral (rest : List Char) : Prop :=
  NoDigit rest ∧ ∀ c, rest.head? = some c → c ≠ '.' ∧ c ≠ 'e' ∧ c ≠ 'E'

namespace Number

/-- Digits are counted up to what is no digit. -/
theorem digitsLength_append (digits : List Digit) (ends : NoDigit rest) :
    digitsLength (digitsText digits ++ rest) = (digitsText digits).length := by
  rw [digitsLength, takeWhile_digits digits ends]

/-- A text that starts with digits starts with a digit. -/
theorem startsDigit_append {digits : List Digit} (written : digits ≠ []) (rest : List Char) :
    startsDigit (digitsText digits ++ rest) = true := by
  cases digits with
  | nil => exact absurd rfl written
  | cons digit others => simp [startsDigit, digit.property]

/-- A digit is no sign and no point. -/
theorem digit_clear (digit : Digit) : digit.val ≠ '+' ∧ digit.val ≠ '-' ∧ digit.val ≠ '.' := by
  have digital := digit.property
  refine ⟨?_, ?_, ?_⟩
  all_goals
    intro same
    rw [same] at digital
    cases digital

/-- Digits have no sign in front of them. -/
theorem signLength_digits {digits : List Digit} (written : digits ≠ []) (rest : List Char) :
    signLength (digitsText digits ++ rest) = 0 := by
  cases digits with
  | nil => exact absurd rfl written
  | cons digit others =>
    have clear := digit_clear digit
    unfold signLength
    -- The first character is a digit, which is neither of the signs.
    split
    · simp_all
    · simp_all
    · rfl

/-- The exponent of a literal is counted up to its end. -/
theorem exponentLength_text (exponent : Exponent) (ends : NoDigit rest) :
    exponentLength (exponent.text ++ rest) = exponent.text.length := by
  obtain ⟨mark, marks, sign, signs, digits, written⟩ := exponent
  have starts := startsDigit_append written rest
  have counted := digitsLength_append digits ends
  -- A sign is counted with the mark; without one the digits follow at once.
  rcases signs with rfl | rfl | rfl
  · have unsigned := signLength_digits written rest
    simp only [Exponent.text, Option.toList_none, List.nil_append, List.cons_append, exponentLength,
      if_pos marks, unsigned, List.drop_zero, starts, if_true, counted, List.length_cons]
    omega
  all_goals
    simp only [Exponent.text, Option.toList_some, List.cons_append, List.nil_append, exponentLength,
      signLength, if_pos marks, List.drop_succ_cons, List.drop_zero, starts, if_true, counted,
      List.length_cons]
    omega

/-- Nothing is counted where no exponent starts. -/
theorem exponentLength_none (ends : ∀ c, rest.head? = some c → c ≠ 'e' ∧ c ≠ 'E') :
    exponentLength rest = 0 := by
  cases rest with
  | nil => rfl
  | cons c others =>
    have clear := ends c rfl
    simp [exponentLength, clear]

/-- The fraction of a literal is counted up to its end. -/
theorem fractionLength_point (numeral : Numeral) (ends : NoDigit rest)
    (plain : numeral.fraction = [] → rest.head? ≠ some '.') :
    fractionLength (numeral.point ++ rest) = numeral.point.length := by
  -- Without digits there is no point, and what follows starts with none either.
  by_cases absent : numeral.fraction = []
  · simp only [Numeral.point, if_pos absent, List.nil_append, fractionLength]
    split
    · exact absurd rfl (plain absent)
    · rfl
  · simp only [Numeral.point, if_neg absent, List.cons_append, fractionLength,
      startsDigit_append absent rest, if_true, digitsLength_append numeral.fraction ends,
      List.length_cons]
    omega

end Number

namespace Numeral

/-- The exponent of a literal as it is written, if there is one. -/
def power (numeral : Numeral) : List Char := (numeral.exponent.map (·.text)).getD []

/-- An exponent starts with its mark. -/
theorem power_head (numeral : Numeral) (ends : EndsNumeral rest) :
    ∀ c, (numeral.power ++ rest).head? = some c → c.isDigit = false ∧ c ≠ '.' := by
  intro c head
  unfold power at head
  -- Without an exponent, what follows the literal follows here.
  cases shape : numeral.exponent with
  | none =>
    rw [shape] at head
    exact ⟨ends.1 c head, (ends.2 c head).1⟩
  | some exponent =>
    rw [shape] at head
    cases head
    rcases exponent.marks with same | same <;> rw [same] <;> decide

/-- Behind the whole digits of a literal stands no digit. -/
theorem point_head (numeral : Numeral) (ends : EndsNumeral rest) :
    NoDigit (numeral.point ++ (numeral.power ++ rest)) := by
  intro c head
  unfold point at head
  split at head
  · exact (numeral.power_head ends c head).1
  · cases head
    rfl

/-- A literal is counted up to its end. -/
theorem literalLength_text (numeral : Numeral) (ends : EndsNumeral rest) :
    Number.literalLength (numeral.text ++ rest) = numeral.text.length := by
  -- The parts are counted one behind the other.
  have parts : numeral.text ++ rest =
      digitsText numeral.whole ++ (numeral.point ++ (numeral.power ++ rest)) := by
    simp [text, power]
  have whole := Number.digitsLength_append numeral.whole (numeral.point_head ends)
  have fraction := Number.fractionLength_point numeral
    (fun c head => (numeral.power_head ends c head).1)
    fun _ head => (numeral.power_head ends '.' head).2 rfl
  have exponent : Number.exponentLength (numeral.power ++ rest) = numeral.power.length := by
    unfold power
    cases numeral.exponent with
    | none => exact Number.exponentLength_none fun c head => (ends.2 c head).2
    | some exponent => exact Number.exponentLength_text exponent ends.1
  rw [Number.literalLength_eq, parts, whole, List.drop_left, fraction, ← List.drop_drop,
    List.drop_left, List.drop_left, exponent]
  simp [text, power]
  omega

/-- An exponent denotes its value. -/
theorem exponent?_text (exponent : Exponent) :
    Number.exponent? exponent.text = some exponent.value := by
  obtain ⟨mark, marks, sign, signs, digits, written⟩ := exponent
  -- An exponent has at least one digit, which shows that it is one.
  cases digits with
  | nil => exact absurd rfl written
  | cons digit others =>
    have valid : ∀ c ∈ digitsText others, c.isDigit = true := fun c => isDigit_of_mem
    have clear := Number.digit_clear digit
    rcases signs with rfl | rfl | rfl
    · -- The first digit is no sign.
      simp only [Exponent.text, Option.toList_none, List.nil_append, Number.exponent?, if_pos marks,
        digitsText_cons]
      split
      case h_1 same => exact absurd (List.cons.inj same).1 clear.2.1
      case h_2 same => exact absurd (List.cons.inj same).1 clear.1
      case h_3 =>
        simp [digit.property, Exponent.value]
        exact valid
    · simp [Exponent.text, Number.exponent?, marks, digit.property, Exponent.value]
      exact valid
    · simp [Exponent.text, Number.exponent?, marks, digit.property, Exponent.value]
      exact valid

/-- A literal denotes its decimal. -/
theorem decimal?_text (numeral : Numeral) :
    Number.decimal? numeral.text =
      some ⟨Number.digitsValue 0 (digitsText (numeral.whole ++ numeral.fraction)),
        (numeral.exponent.map (·.value)).getD 0 - numeral.fraction.length⟩ := by
  -- Nothing follows behind the literal itself.
  have atEnd : EndsNumeral [] := ⟨nofun, nofun⟩
  have powered : Number.exponent? numeral.power = some ((numeral.exponent.map (·.value)).getD 0) := by
    unfold power
    cases numeral.exponent with
    | none => rfl
    | some exponent => exact exponent?_text exponent
  have parts : numeral.text = digitsText numeral.whole ++ (numeral.point ++ numeral.power) := rfl
  have pointed : NoDigit (numeral.point ++ numeral.power) := by
    simpa using numeral.point_head atEnd
  have behind : NoDigit numeral.power := by
    intro c head
    exact (numeral.power_head atEnd c (by simpa using head)).1
  have written :
      ((digitsText numeral.whole).isEmpty && (digitsText numeral.fraction).isEmpty) = false := by
    rcases numeral.written with whole | fraction
    · simp [whole]
    · simp [fraction]
  -- The digits are taken up to the point, and those behind it up to the exponent.
  unfold Number.decimal?
  rw [parts, takeWhile_digits _ pointed, dropWhile_digits _ pointed]
  unfold point at pointed ⊢
  by_cases absent : numeral.fraction = []
  · -- Without a fraction there is no point.
    rw [if_pos absent, List.nil_append]
    have whole : numeral.whole ≠ [] := by simpa [absent] using numeral.written
    dsimp only
    split
    case h_1 rest same =>
      exact absurd rfl (numeral.power_head atEnd '.' (by rw [same]; rfl)).2
    case h_2 => simp [whole, powered, absent]
  · rw [if_neg absent]
    simp only [List.cons_append, takeWhile_digits _ behind, dropWhile_digits _ behind, written]
    simp [powered]

/-- A literal starts with a digit, or with its point and a digit. -/
theorem head_eq (numeral : Numeral) :
    ∃ c tail, numeral.text = c :: tail ∧
      (c.isDigit = true ∨ c = '.' ∧ ∃ digit others, tail = digit :: others ∧ digit.isDigit = true) := by
  -- The digits in front of the point come first, and without any of them the point.
  cases shape : numeral.whole with
  | cons digit others =>
    refine ⟨digit.val, digitsText others ++ (numeral.point ++ numeral.power), ?_, .inl digit.property⟩
    simp [text, power, shape]
  | nil =>
    cases fraction : numeral.fraction with
    | nil => exact absurd numeral.written (by simp [shape, fraction])
    | cons digit others =>
      refine ⟨'.', digit.val :: (digitsText others ++ numeral.power), ?_,
        .inr ⟨rfl, _, _, rfl, digit.property⟩⟩
      simp [text, power, point, shape, fraction, digitsText]

/-- A digit and a point have no case. -/
theorem toLower_eq {c : Char} (starts : c.isDigit = true ∨ c = '.') : c.toLower = c := by
  -- Only the capital letters are changed.
  have small : ¬ (c.val ≥ 'A'.val ∧ c.val ≤ 'Z'.val) := by
    rcases starts with digit | rfl
    · simp only [Char.isDigit, Bool.and_eq_true, decide_eq_true_eq, UInt32.le_iff_toNat_le,
        ge_iff_le] at digit ⊢
      have nine : '9'.val.toNat = 57 := rfl
      have capital : 'A'.val.toNat = 65 := rfl
      omega
    · decide
  unfold Char.toLower
  rw [dif_neg small]

/-- A text that starts with a digit or a point is none of the words for numbers. -/
theorem word_ne {c : Char} (starts : c.isDigit = true ∨ c = '.') (tail : List Char) (word : String)
    {first : Char} {others : List Char} (spelled : word = String.ofList (first :: others))
    (letter : first = 'i' ∨ first = 'n') : String.ofList ((c :: tail).map Char.toLower) ≠ word := by
  -- Both would start with the same character.
  intro same
  rw [spelled, String.ofList_inj, List.map_cons, toLower_eq starts] at same
  obtain rfl : c = first := (List.cons.inj same).1
  rcases letter with rfl | rfl <;> rcases starts with digit | point
  · cases digit
  · cases point
  · cases digit
  · cases point

/-- A literal denotes its number. -/
theorem parse?_text (numeral : Numeral) : Number.parse? numeral.text = some numeral.value := by
  obtain ⟨c, tail, shape, digital⟩ := numeral.head_eq
  have starts : c.isDigit = true ∨ c = '.' := digital.imp id And.left
  -- A literal is read as a decimal, as none of the words for numbers starts like one.
  have infinite := word_ne starts tail "inf" rfl (.inl rfl)
  have infinity := word_ne starts tail "infinity" rfl (.inl rfl)
  have missing := word_ne starts tail "nan" rfl (.inr rfl)
  have magnitude : Number.magnitude? numeral.text = some numeral.value := by
    unfold Number.magnitude?
    rw [numeral.decimal?_text, shape]
    simp only [infinite, infinity, missing, or_self, if_false]
    rfl
  have unsigned : c ≠ '-' ∧ c ≠ '+' := by
    rcases starts with digit | rfl
    · have clear := Number.digit_clear ⟨c, digit⟩
      exact ⟨clear.2.1, clear.1⟩
    · decide
  unfold Number.parse?
  rw [shape] at magnitude ⊢
  -- The literal has no sign in front.
  split
  case h_1 same => exact absurd (List.cons.inj same).1 unsigned.1
  case h_2 same => exact absurd (List.cons.inj same).1 unsigned.2
  case h_3 => exact magnitude

end Numeral

end ScriptEngine

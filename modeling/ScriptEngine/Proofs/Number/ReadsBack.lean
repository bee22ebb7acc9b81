import ScriptEngine.Proofs.Grammar.Numeral
import ScriptEngine.Proofs.Number.Shortest
import ScriptEngine.Proofs.Tagged.RoundTrip

/-! Each number is read back from its text. -/

namespace ScriptEngine.Number

open Float.Model (UnpackedFloat)
open Float.Model.Format (binary64)

/-! The text of a decimal. -/

/-- The value of digits is that of the digits that a number is shown with. -/
theorem digitsValue_eq (value : Nat) (digits : List Char) :
    digitsValue value digits = Nat.ofDigitChars 10 digits value := by
  unfold digitsValue
  rw [Nat.ofDigitChars_eq_foldl]
  congr 1
  funext total digit
  rw [Nat.mul_comm]

/-- Characters that are all digits. -/
theorem exists_digits {text : List Char} (digital : ∀ c ∈ text, c.isDigit = true) :
    ∃ digits : List Digit, digitsText digits = text :=
  ⟨text.attach.map fun c => ⟨c.val, digital c.val c.property⟩, by simp [digitsText]⟩

/-- The digits of a number are digits. -/
theorem isDigit_toDigits {n : Nat} : ∀ c ∈ Nat.toDigits 10 n, c.isDigit = true :=
  fun _ member => Nat.isDigit_of_mem_toDigits (by decide) (by decide) member

/-- Zeros are digits. -/
theorem isDigit_zeros {count : Nat} : ∀ c ∈ List.replicate count '0', c.isDigit = true := by
  intro c zero
  rw [(List.mem_replicate.mp zero).2]
  decide

/-- A text is a number literal that has the value of a decimal. -/
def Decimal.WrittenAs (decimal : Decimal) (text : List Char) : Prop :=
  ∃ numeral : Numeral, ∃ shown : Decimal, text = numeral.text ∧ numeral.value = ofDecimal shown ∧
    0 < shown.digits ∧ shown.value = decimal.value

/-- A decimal that is a whole number is written with zeros behind its digits. -/
theorem Decimal.writtenAs_whole (decimal : Decimal) (positive : 0 < decimal.digits)
    (whole : 0 ≤ decimal.exponent) :
    decimal.WrittenAs (Nat.toDigits 10 decimal.digits ++ List.replicate decimal.exponent.toNat '0') := by
  have digital : ∀ c ∈ Nat.toDigits 10 decimal.digits ++ List.replicate decimal.exponent.toNat '0',
      c.isDigit = true := by
    intro c member
    exact (List.mem_append.mp member).elim (isDigit_toDigits c) (isDigit_zeros c)
  obtain ⟨digits, written⟩ := exists_digits digital
  have some : digits ≠ [] := by
    rintro rfl
    simp [digitsText] at written
  refine ⟨⟨digits, [], .inl some, none⟩,
    ⟨decimal.digits * 10 ^ decimal.exponent.toNat, 0⟩, ?_, ?_, ?_, ?_⟩
  · rw [← written]
    simp [Numeral.text, Numeral.point]
  · -- Each zero multiplies the value of the digits by ten.
    unfold Numeral.value
    dsimp only
    rw [List.append_nil, written, digitsValue_eq, Nat.ofDigitChars_append,
      Nat.ofDigitChars_ten_toDigits, Nat.ofDigitChars_replicate_zero, Nat.mul_comm]
    rfl
  · positivity
  · unfold Decimal.value
    dsimp only
    rw [zpow_of_nonneg 10 whole]
    push_cast
    ring

/-- Digits that are cut by a point, as many of them behind it as the exponent says, are a decimal. -/
theorem Decimal.writtenAs_fraction (decimal : Decimal) (positive : 0 < decimal.digits)
    (fraction : decimal.exponent < 0) {padded : List Char} (digital : ∀ c ∈ padded, c.isDigit = true)
    (value : digitsValue 0 padded = decimal.digits)
    (length : (-decimal.exponent).toNat < padded.length) :
    decimal.WrittenAs (padded.take (padded.length - (-decimal.exponent).toNat) ++
      '.' :: padded.drop (padded.length - (-decimal.exponent).toNat)) := by
  generalize places_eq : (-decimal.exponent).toNat = places at length ⊢
  obtain ⟨front, frontWritten⟩ := exists_digits fun c member =>
    digital c (List.mem_of_mem_take (i := padded.length - places) member)
  obtain ⟨back, backWritten⟩ := exists_digits fun c member =>
    digital c (List.mem_of_mem_drop (i := padded.length - places) member)
  have frontLength := congrArg List.length frontWritten
  have backLength := congrArg List.length backWritten
  rw [List.length_take, digitsText, List.length_map] at frontLength
  rw [List.length_drop, digitsText, List.length_map] at backLength
  -- There are digits on both sides of the point.
  have some : front ≠ [] := by
    rintro rfl
    simp only [List.length_nil] at frontLength
    omega
  have behind : back ≠ [] := by
    rintro rfl
    simp only [List.length_nil] at backLength
    omega
  refine ⟨⟨front, back, .inl some, none⟩, decimal, ?_, ?_, positive, rfl⟩
  · rw [← frontWritten, ← backWritten]
    simp [Numeral.text, Numeral.point, behind]
  · have both : digitsText (front ++ back) = padded := by
      rw [digitsText, List.map_append]
      show digitsText front ++ digitsText back = padded
      rw [frontWritten, backWritten, List.take_append_drop]
    have exponent : (0 : Int) - back.length = decimal.exponent := by omega
    unfold Numeral.value
    dsimp only [Option.map_none, Option.getD_none]
    rw [both, value, exponent]

/-- A decimal is shown as a number literal without an exponent that has its value. -/
theorem Decimal.writtenAs_positional (decimal : Decimal) (positive : 0 < decimal.digits) :
    decimal.WrittenAs decimal.positional.toList := by
  unfold Decimal.positional
  dsimp only
  split
  case isTrue whole =>
    rw [String.toList_ofList]
    exact decimal.writtenAs_whole positive whole
  case isFalse fraction =>
    -- Zeros are put in front of the digits, so that one of them stands in front of the point.
    rw [String.toList_ofList]
    refine decimal.writtenAs_fraction positive (by omega) ?_ ?_ ?_
    · intro c member
      exact (List.mem_append.mp member).elim (isDigit_zeros c) (isDigit_toDigits c)
    · rw [digitsValue_eq, Nat.ofDigitChars_append, Nat.ofDigitChars_replicate_zero, Nat.mul_zero,
        Nat.ofDigitChars_ten_toDigits]
    · rw [List.length_append, List.length_replicate]
      omega

/-- Trailing zeros of a decimal do not change its value. -/
theorem value_stripZeros (decimal : Decimal) (fuel : Nat) :
    (decimal.stripZeros fuel).value = decimal.value := by
  -- The induction is on the zeros that may still be stripped.
  induction fuel generalizing decimal with
  | zero => rfl
  | succ fuel ih =>
    rw [Decimal.stripZeros]
    split
    case isTrue trailing =>
      have split : (decimal.digits : ℚ) = 10 * (decimal.digits / 10 : Nat) := by
        have := Nat.div_add_mod decimal.digits 10
        rw [trailing.1, Nat.add_zero] at this
        exact_mod_cast this.symm
      rw [ih, Decimal.value, Decimal.value, zpow_add_one₀ (by norm_num), split]
      ring
    case isFalse => rfl

variable {number : Binary}

/-- A decimal near a double has digits. -/
theorem digits_pos_of_near {decimal : Decimal} (canonical : number.Canonical)
    (near : number.Near decimal.value) : 0 < decimal.digits := by
  obtain ⟨low, _⟩ := canonical.near_bounds near
  by_contra none
  have zero : decimal.digits = 0 := by omega
  rw [Decimal.value, zero, Nat.cast_zero, zero_mul] at low
  exact absurd low (not_le.mpr (by positivity))

/-- A text denotes a number, and with a sign in front its negative. -/
def Denotes (text : List Char) (x : Float) : Prop :=
  parse? text = some x ∧ parse? ('-' :: text) = some (-x)

/-- A number literal denotes its value, with or without a sign. -/
theorem denotes_numeral (numeral : Numeral) : Denotes numeral.text numeral.value := by
  have unsigned := numeral.parse?_text
  refine ⟨unsigned, ?_⟩
  obtain ⟨c, tail, shape, digital⟩ := numeral.head_eq
  have starts : c ≠ '-' ∧ c ≠ '+' := by
    rcases digital with digit | ⟨rfl, -⟩
    · have clear := digit_clear ⟨c, digit⟩
      exact ⟨clear.2.1, clear.1⟩
    · decide
  -- Without a sign the literal is read as a magnitude.
  rw [shape] at unsigned ⊢
  unfold parse? at unsigned
  split at unsigned
  case h_1 same => exact absurd (List.cons.inj same).1 starts.1
  case h_2 same => exact absurd (List.cons.inj same).1 starts.2
  case h_3 =>
    rw [parse?, unsigned]
    rfl

/-- The text of a decimal near a double denotes the double. -/
theorem denotes_positional {decimal : Decimal} (canonical : number.Canonical)
    (near : number.Near decimal.value) :
    Denotes decimal.positional.toList (number.toFloat .positive canonical) := by
  obtain ⟨numeral, shown, written, value, positive, same⟩ :=
    decimal.writtenAs_positional (digits_pos_of_near canonical near)
  rw [← same] at near
  rw [written, ← ofDecimal_near positive canonical near, ← value]
  exact denotes_numeral numeral

/-! The text of a double. -/

/-- Zero has the parts of zero. -/
theorem unpack_zero : (0 : Float).toModel.unpack = .zero .positive := by
  have packed : (0 : Float) = .ofModel (.pack (.zero .positive)) := by decide
  rw [packed]
  exact UnpackedFloat.unpack_packedZero

/-- A double with a magnitude is below zero exactly if its sign says so. -/
theorem toFloat_lt_zero (sign : UnpackedFloat.Sign) (canonical : number.Canonical) :
    number.toFloat sign canonical < 0 ↔ sign = .negative := by
  rw [lt_iff_unpack, unpack_zero, Binary.unpack_toFloat]
  cases sign
  · exact ⟨fun _ => rfl, fun _ => rfl⟩
  · exact ⟨nofun, nofun⟩

/-- The magnitude `10 ^ 15` in its form. -/
theorem canonical_wholeLimit : (⟨8000000000000000, -3⟩ : Binary).Canonical :=
  ⟨by decide, by decide, by decide, by decide, .inr (by decide)⟩

/-- A double with a magnitude below `10 ^ 15` has places for eighths. -/
theorem exponent_of_small (sign : UnpackedFloat.Sign) (canonical : number.Canonical)
    (small : (number.toFloat sign canonical).abs < 1e15) : number.exponent ≤ -3 := by
  have limit : (1e15 : Float) = Binary.toFloat _ .positive canonical_wholeLimit := by
    decide
  have absolute : (number.toFloat sign canonical).abs = number.toFloat .positive canonical := by
    show Float.ofModel (.pack (number.toFloat sign canonical).toModel.unpack.abs) = _
    rw [Binary.unpack_toFloat]
    rfl
  rw [limit, absolute, lt_iff_unpack, Binary.unpack_toFloat, Binary.unpack_toFloat] at small
  -- The exponents are compared first.
  have less := Ordering.then_eq_lt.mp (Option.some.inj small)
  rcases less with exponent | ⟨exponent, -⟩
  · exact (Int.compare_eq_lt.mp exponent).le
  · exact (Int.compare_eq_eq.mp exponent).le

/-- The whole part of a whole magnitude is the magnitude. -/
theorem value_whole (canonical : number.Canonical) (fraction : number.exponent ≤ -3)
    (divides : number.mantissa % (1 <<< (-number.exponent).toNat) = 0) :
    number.value = number.whole ∧ 0 < number.whole ∧ number.whole < 2 ^ 53 := by
  obtain ⟨positive, fits, _, _, _⟩ := canonical
  have whole : number.whole = number.mantissa / 2 ^ (-number.exponent).toNat := by
    unfold Binary.whole
    rw [if_neg (by omega), Nat.shiftRight_eq_div_pow]
  rw [Nat.one_shiftLeft] at divides
  -- The digits behind the point are all zero, so that the mantissa is a multiple of the whole part.
  have parts : number.mantissa = number.whole * 2 ^ (-number.exponent).toNat := by
    rw [whole]
    exact (Nat.div_mul_cancel (Nat.dvd_of_mod_eq_zero divides)).symm
  refine ⟨?_, ?_, ?_⟩
  · rw [Binary.value, zpow_of_nonpos 2 (by omega : number.exponent ≤ 0)]
    conv_lhs => rw [parts]
    push_cast
    field_simp
  · by_contra none
    rw [Nat.eq_zero_of_not_pos none, Nat.zero_mul] at parts
    omega
  · rw [whole]
    exact (Nat.div_le_self _ _).trans_lt fits

/-- A whole number is shown as a decimal without a fraction. -/
theorem positional_natural (n : Nat) :
    (⟨n, 0⟩ : Decimal).positional = String.ofList (Nat.toDigits 10 n) := by
  simp [Decimal.positional]

/-- An integer that is not zero is shown by its digits behind its sign. -/
theorem toString_signed {n : Nat} (positive : 0 < n) (negative : Bool) :
    (toString (if negative then -(n : Int) else n)).toList =
      (if negative then ['-'] else []) ++ (⟨n, 0⟩ : Decimal).positional.toList := by
  rw [positional_natural, String.toList_ofList, Int.toString_eq_repr, Int.repr_eq_if]
  cases negative
  · simp
  · have nonzero : n ≠ 0 := by omega
    simp [nonzero]

/-- A double with a magnitude is a number, and none of the infinities. -/
theorem finite_of_unpacked {x : Float} {canonical : (Binary.ofFloat x).Canonical}
    (unpacked : x.toModel.unpack = (Binary.ofFloat x).unpacked (sign x) canonical) :
    x.isNaN = false ∧ x.isInf = false ∧ x.isFinite = true := by
  refine ⟨?_, ?_, ?_⟩
  · show x.toModel.unpack.isNaN = false
    rw [unpacked]
    rfl
  · show x.toModel.unpack.isInf = false
    rw [unpacked]
    rfl
  · show x.toModel.unpack.isFinite = true
    rw [unpacked]
    rfl

/-- A whole double with a magnitude below `10 ^ 15` is converted to an integer without loss. -/
theorem toInteger_whole {x : Float} {canonical : (Binary.ofFloat x).Canonical}
    (unpacked : x.toModel.unpack = (Binary.ofFloat x).unpacked (sign x) canonical)
    (whole : isWhole x = true) (small : x.abs < 1e15) :
    (Binary.ofFloat x).value = (Binary.ofFloat x).whole ∧ 0 < (Binary.ofFloat x).whole ∧
      toInteger x = if isNegative x then -((Binary.ofFloat x).whole : Int)
        else (Binary.ofFloat x).whole := by
  obtain ⟨isNumber, -, isFinite⟩ := finite_of_unpacked unpacked
  have fraction := exponent_of_small (sign x) canonical ((toFloat_ofFloat unpacked).symm ▸ small)
  -- A whole number has nothing behind its point.
  have divides : (Binary.ofFloat x).mantissa %
      (1 <<< (-(Binary.ofFloat x).exponent).toNat) = 0 := by
    unfold isWhole at whole
    dsimp only at whole
    have negative : decide (0 ≤ (Binary.ofFloat x).exponent) = false := by
      rw [decide_eq_false_iff_not]
      omega
    rw [isFinite, negative, Bool.true_and, Bool.false_or] at whole
    exact eq_of_beq whole
  obtain ⟨value, positive, bounded⟩ := value_whole canonical fraction divides
  refine ⟨value, positive, ?_⟩
  unfold toInteger
  rw [isNumber, if_neg (by decide)]
  split <;> omega

/-- A double with a magnitude is shown by its sign and a decimal near it. -/
theorem format_finite {x : Float} {canonical : (Binary.ofFloat x).Canonical}
    (unpacked : x.toModel.unpack = (Binary.ofFloat x).unpacked (sign x) canonical) :
    ∃ decimal : Decimal, (Binary.ofFloat x).Near decimal.value ∧
      (format x).toList = (if isNegative x then ['-'] else []) ++ decimal.positional.toList := by
  obtain ⟨isNumber, isBounded, -⟩ := finite_of_unpacked unpacked
  have below : x < 0 ↔ isNegative x = true := by
    have signed := toFloat_lt_zero (sign x) canonical
    rw [toFloat_ofFloat unpacked] at signed
    rw [signed, sign]
    cases isNegative x <;> simp
  unfold format
  rw [isNumber, isBounded, if_neg (by decide), if_neg (by decide)]
  split
  case isTrue whole =>
    -- A whole number is shown with all its digits, which are few enough for an integer.
    rw [Bool.and_eq_true, decide_eq_true_eq] at whole
    obtain ⟨value, positive, integer⟩ := toInteger_whole unpacked whole.1 whole.2
    refine ⟨⟨(Binary.ofFloat x).whole, 0⟩, ?_, ?_⟩
    · have same : Decimal.value ⟨(Binary.ofFloat x).whole, 0⟩ = (Binary.ofFloat x).value := by
        rw [value, Decimal.value, zpow_zero, mul_one]
      rw [same]
      exact Binary.near_value _
    · rw [integer, toString_signed positive]
  case isFalse =>
    refine ⟨(shortest (Binary.ofFloat x)).stripZeros 20, ?_, ?_⟩
    · rw [value_stripZeros]
      exact near_shortest canonical
    · dsimp only
      simp only [below]
      split <;> simp

/-- The bits of a double with a magnitude are not those of minus zero. -/
theorem asWritten_finite {x : Float} (canonical : (Binary.ofFloat x).Canonical) :
    asWritten x = x := by
  unfold asWritten
  split
  case isTrue same =>
    -- Minus zero has no magnitude.
    have none : (Binary.ofFloat (-0.0)).mantissa = 0 := by decide
    have positive := canonical.positive
    rw [eq_of_toBits same, none] at positive
    exact absurd positive (by decide)
  case isFalse => rfl

/-- Each number is read back from its text. -/
theorem readsBack (x : Float) : ReadsBack x := by
  -- The texts of the doubles without a magnitude are looked up, and the others are decimals.
  cases kind x with
  | nan unpacked =>
    rw [eq_of_unpack unpacked]
    show parse? _ = some _
    decide
  | infinity unpacked =>
    rw [eq_of_unpack unpacked]
    show parse? _ = some _
    cases sign x <;> decide
  | zero unpacked _ =>
    rw [eq_of_unpack unpacked]
    show parse? _ = some _
    cases sign x <;> decide
  | finite canonical unpacked =>
    obtain ⟨decimal, near, shown⟩ := format_finite unpacked
    obtain ⟨unsigned, signed⟩ := denotes_positional canonical near
    have parts := toFloat_ofFloat unpacked
    rw [ReadsBack, shown, asWritten_finite canonical]
    rw [sign] at parts
    split at parts
    case isTrue negative =>
      rw [if_pos negative, List.cons_append, List.nil_append, signed, Binary.neg_toFloat]
      exact congrArg some parts
    case isFalse positive =>
      rw [if_neg positive, List.nil_append, unsigned]
      exact congrArg some parts

end ScriptEngine.Number

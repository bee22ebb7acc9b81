import ScriptEngine.Proofs.Number.Decimal

/-! The integer that a number is cut to is kept when it is made a number again. -/

namespace ScriptEngine.Number

open Float.Model (UnpackedFloat)

variable {number : Binary} {n : Nat}

/-- A double with a magnitude has the magnitude and the sign that it is made of. -/
theorem ofFloat_toFloat (signed : UnpackedFloat.Sign) (canonical : number.Canonical) :
    Binary.ofFloat (number.toFloat signed canonical) = number ∧
      sign (number.toFloat signed canonical) = signed := by
  have parts := number.unpack_toFloat signed canonical
  cases kind (number.toFloat signed canonical) with
  | nan unpacked => cases unpacked.symm.trans parts
  | infinity unpacked => cases unpacked.symm.trans parts
  | zero unpacked _ => cases unpacked.symm.trans parts
  | finite _ unpacked =>
    have same := unpacked.symm.trans parts
    rw [Binary.unpacked, Binary.unpacked, UnpackedFloat.finite.injEq] at same
    obtain ⟨signs, mantissas, exponents⟩ := same
    refine ⟨?_, signs⟩
    -- The two magnitudes have the same fields.
    generalize Binary.ofFloat (number.toFloat signed canonical) = shown at mantissas exponents
    obtain ⟨_, _⟩ := shown
    obtain ⟨_, _⟩ := number
    cases mantissas
    cases exponents
    rfl

/-- The whole part of a magnitude that is a whole number is that number. -/
theorem whole_of_value (value : number.value = n) : number.whole = n := by
  unfold Binary.value at value
  unfold Binary.whole
  split
  case isTrue shifted =>
    rw [zpow_of_nonneg 2 shifted] at value
    rw [Nat.shiftLeft_eq]
    exact_mod_cast value
  case isFalse fraction =>
    -- A magnitude with a fraction is a multiple of its unit.
    have unit := zpow_of_nonpos 2 (by omega : number.exponent ≤ 0)
    have parts : number.mantissa = n * 2 ^ (-number.exponent).toNat := by
      rw [unit, ← div_eq_mul_inv, div_eq_iff (by positivity)] at value
      exact_mod_cast value
    rw [Nat.shiftRight_eq_div_pow, parts, Nat.mul_div_cancel _ (by positivity)]

/-- A double with a magnitude is cut to its whole part, up to the bounds of an integer. -/
theorem toInteger_toFloat (negative : Bool) (canonical : number.Canonical) :
    toInteger (number.toFloat (if negative then .negative else .positive) canonical) =
      if negative then max (-(number.whole : Int)) (-0x8000000000000000)
      else min (number.whole : Int) 0x7FFFFFFFFFFFFFFF := by
  obtain ⟨magnitude, signed⟩ :=
    ofFloat_toFloat (if negative then .negative else .positive) canonical
  have parts := number.unpack_toFloat (if negative then .negative else .positive) canonical
  -- Only the magnitude, the sign and the parts of the double are used from here on.
  generalize number.toFloat (if negative then .negative else .positive) canonical = x at *
  have isNumber : x.isNaN = false := by
    show x.toModel.unpack.isNaN = false
    rw [parts]
    rfl
  have isSigned : isNegative x = negative := by
    unfold sign at signed
    cases negative <;> cases same : isNegative x <;> simp [same] at signed <;> rfl
  unfold toInteger
  rw [magnitude, isNumber, isSigned]
  rfl

/-- A whole number that is the magnitude of a double is converted to that double. -/
theorem ofInt_eq (negative : Bool) (positive : 0 < n) (canonical : number.Canonical)
    (value : number.value = n) :
    Float.ofInt (if negative then -(n : Int) else n) =
      number.toFloat (if negative then .negative else .positive) canonical := by
  have near : number.Near (n * 10 ^ (0 : Int)) := by
    rw [zpow_zero, mul_one, ← value]
    exact number.near_value
  have converted : Float.ofNat n = number.toFloat .positive canonical :=
    ofScientific_near positive canonical near
  cases negative
  · exact converted
  · -- The conversion of a negative integer negates that of its magnitude.
    obtain ⟨before, rfl⟩ := Nat.exists_eq_succ_of_ne_zero (Nat.ne_of_gt positive)
    show -Float.ofNat (before + 1) = _
    rw [converted, Binary.neg_toFloat]
    rfl

/-- A number whose whole part is within the bounds of an integer is, without its fraction, the
magnitude of a double. -/
theorem exists_whole (canonical : number.Canonical) (positive : 0 < number.whole) :
    ∃ other : Binary, other.Canonical ∧ other.value = number.whole := by
  by_cases shifted : 0 ≤ number.exponent
  · refine ⟨number, canonical, ?_⟩
    rw [Binary.value, Binary.whole, if_pos shifted, zpow_of_nonneg 2 shifted, Nat.shiftLeft_eq]
    push_cast
    rfl
  · -- The whole part has fewer places than the mantissa.
    have small : number.whole < 2 ^ 53 := by
      unfold Binary.whole
      rw [if_neg shifted, Nat.shiftRight_eq_div_pow]
      exact (Nat.div_le_self _ _).trans_lt canonical.fits
    obtain ⟨other, otherCanonical, _, value, _⟩ := (stands_toFloat positive small).parts
    exact ⟨other, otherCanonical, value⟩

/-- Beyond the bounds of an integer there is one integer for each sign. -/
theorem saturated_of_large (negative : Bool) {n : Nat} (large : 0x8000000000000000 ≤ n) :
    (if negative then max (-(n : Int)) (-0x8000000000000000) else min (n : Int) 0x7FFFFFFFFFFFFFFF) =
      if negative then -0x8000000000000000 else 0x7FFFFFFFFFFFFFFF := by
  cases negative
  · show min (n : Int) 0x7FFFFFFFFFFFFFFF = 0x7FFFFFFFFFFFFFFF
    omega
  · show max (-(n : Int)) (-0x8000000000000000) = -0x8000000000000000
    omega

/-- Within the bounds of an integer a whole number keeps its size and its sign. -/
theorem saturated_of_small (negative : Bool) {n : Nat} (small : n < 0x8000000000000000) :
    (if negative then max (-(n : Int)) (-0x8000000000000000) else min (n : Int) 0x7FFFFFFFFFFFFFFF) =
      if negative then -(n : Int) else n := by
  cases negative
  · show min (n : Int) 0x7FFFFFFFFFFFFFFF = n
    omega
  · show max (-(n : Int)) (-0x8000000000000000) = -(n : Int)
    omega

/-- The integer of a number is that of the number made from it. -/
theorem toInteger_ofInt_toInteger (x : Float) :
    toInteger (Float.ofInt (toInteger x)) = toInteger x := by
  cases kind x with
  | nan unpacked =>
    rw [eq_of_unpack unpacked]
    decide
  | infinity unpacked =>
    rw [eq_of_unpack unpacked]
    cases sign x <;> decide
  | zero unpacked _ =>
    rw [eq_of_unpack unpacked]
    cases sign x <;> decide
  | finite canonical unpacked =>
    have parts := toFloat_ofFloat unpacked
    have integer := toInteger_toFloat (isNegative x) canonical
    rw [← sign, parts] at integer
    rw [integer]
    generalize isNegative x = negative
    by_cases none : (Binary.ofFloat x).whole = 0
    · rw [none]
      cases negative <;> decide
    by_cases large : 0x8000000000000000 ≤ (Binary.ofFloat x).whole
    · rw [saturated_of_large negative large]
      cases negative <;> decide
    · -- The integer is the whole part with its sign, which is converted without a loss.
      have bounded := saturated_of_small negative (Nat.lt_of_not_le large)
      have positive := Nat.pos_of_ne_zero none
      obtain ⟨other, otherCanonical, value⟩ := exists_whole canonical positive
      have whole := whole_of_value value
      rw [bounded, ofInt_eq negative positive otherCanonical value,
        toInteger_toFloat negative otherCanonical, whole, bounded]

/-- An integer of up to 53 bits is kept when it is made a number. -/
theorem toInteger_ofInt_of_small {number : Int} (small : number.natAbs ≤ 2 ^ 53) :
    toInteger (Float.ofInt number) = number := by
  by_cases inner : 0 < number.natAbs ∧ number.natAbs < 2 ^ 53
  · -- The integer is its magnitude, which is that of a double, with its sign.
    obtain ⟨other, canonical, _, value, _⟩ := (stands_toFloat inner.1 inner.2).parts
    have whole := whole_of_value value
    have signed : (if number < 0 then -(number.natAbs : Int) else number.natAbs) = number := by omega
    have converted := ofInt_eq (decide (number < 0)) inner.1 canonical value
    have cut := toInteger_toFloat (decide (number < 0)) canonical
    simp only [decide_eq_true_eq] at converted cut
    rw [signed] at converted
    rw [converted, cut, whole]
    omega
  · have edge : number = 0 ∨ number = 2 ^ 53 ∨ number = -2 ^ 53 := by omega
    rcases edge with rfl | rfl | rfl <;> decide

end ScriptEngine.Number

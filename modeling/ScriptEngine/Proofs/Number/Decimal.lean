import ScriptEngine.Proofs.Number.Rounding
import ScriptEngine.Number.Text

/-! A decimal near a double is read as this double. -/

namespace ScriptEngine.Number

open Float.Model (UnpackedFloat totalExponent)
open Float.Model.Format (binary64)
open Float.Model.UnpackedFloat (Sign)

variable {number : Binary} {q : ℚ}

/-! Products and quotients. -/

/-- A product near a double is that double, if its mantissa has enough places. -/
theorem mul_near (left right : Sign) {first second : Nat} {firstExponent secondExponent : Int}
    {firstPositive : 0 < first} {secondPositive : 0 < second} (canonical : number.Canonical)
    (near : number.Near (first * 2 ^ firstExponent * (second * 2 ^ secondExponent)))
    (places : 2 ^ 52 ≤ first * second) :
    UnpackedFloat.mul binary64 (.finite left first firstExponent firstPositive)
        (.finite right second secondExponent secondPositive) =
      number.unpacked (left * right) canonical := by
  -- The product of the mantissas is exact, so that only the result is rounded.
  refine roundWithAccuracy_near canonical near ?_ ?_
  · have scaled : (first * 2 ^ firstExponent * (second * 2 ^ secondExponent) : ℚ) /
        2 ^ (firstExponent + secondExponent) = (first * second : Nat) := by
      rw [zpow_add₀ (by norm_num)]
      push_cast
      field_simp
    rw [scaled]
    rfl
  · have log := (Nat.le_log2 (n := first * second) (k := 52) (by omega)).mpr places
    rw [targetExponent_eq, totalExponent]
    omega

/-- The position of the leading bit bounds a magnitude from both sides. -/
theorem scaled_bounds {mantissa : Nat} (positive : 0 < mantissa) (exponent : Int) :
    (2 : ℚ) ^ (totalExponent mantissa exponent - 1) ≤ mantissa * 2 ^ exponent ∧
      (mantissa : ℚ) * 2 ^ exponent < 2 ^ totalExponent mantissa exponent := by
  have units : (mantissa : ℚ) * 2 ^ exponent / 2 ^ exponent = mantissa := by
    field_simp
  exact totalExponent_bounds positive units.ge (by linarith)

/-- A quotient has at least as many places as the places of its parts say. -/
theorem quotient_enough {quotient : Nat} {target places : Int}
    (bounded : target ≤ binary64.targetExponent places) (least : (2 : ℚ) ^ (places - 1) < q)
    (whole : (quotient : ℚ) ≤ q / 2 ^ target) (next : q / 2 ^ target < quotient + 1) :
    target ≤ binary64.targetExponent (totalExponent quotient target) := by
  have ordered : ∀ {low high : Int}, (2 : ℚ) ^ low < 2 ^ high → low < high := fun below =>
    (zpow_lt_zpow_iff_right₀ (by norm_num)).mp below
  rw [targetExponent_eq] at bounded ⊢
  by_cases none : quotient = 0
  · -- The quotient is less than one unit, which only the smallest unit allows.
    have unit : (0 : ℚ) < 2 ^ target := by positivity
    rw [none, Nat.cast_zero, zero_add, div_lt_one unit] at next
    have := ordered (least.trans next)
    omega
  · obtain ⟨_, high⟩ := totalExponent_bounds (Nat.pos_of_ne_zero none) whole next
    have := ordered (least.trans high)
    omega

/-- A quotient near a double is that double. -/
theorem div_near (left right : Sign) {first second : Nat} {firstExponent secondExponent : Int}
    {firstPositive : 0 < first} {secondPositive : 0 < second} (canonical : number.Canonical)
    (near : number.Near (first * 2 ^ firstExponent / (second * 2 ^ secondExponent))) :
    UnpackedFloat.div binary64 (.finite left first firstExponent firstPositive)
        (.finite right second secondExponent secondPositive) =
      number.unpacked (left / right) canonical := by
  let places := totalExponent first firstExponent - totalExponent second secondExponent
  let target := min (firstExponent - secondExponent) (binary64.targetExponent places)
  let shift := (firstExponent - secondExponent - target).toNat
  have positive : (0 : ℚ) < second := by exact_mod_cast secondPositive
  -- The dividend is shifted up to the smaller exponent, so that the quotient has enough places.
  have scaled : (first * 2 ^ firstExponent / (second * 2 ^ secondExponent) : ℚ) / 2 ^ target =
      (first <<< shift : Nat) / second := by
    have shifted : (2 : ℚ) ^ shift = 2 ^ firstExponent / 2 ^ secondExponent / 2 ^ target := by
      rw [← zpow_natCast, ← zpow_sub₀ (by norm_num), ← zpow_sub₀ (by norm_num)]
      congr 1
      show ((firstExponent - secondExponent - target).toNat : Int) = _
      omega
    rw [Nat.shiftLeft_eq]
    push_cast
    rw [shifted]
    field_simp
  have represents := represents_quotient (first <<< shift) secondPositive
  rw [← scaled] at represents
  obtain ⟨whole, next⟩ := represents.whole
  rw [ofMantissaAndAccuracy_mantissa] at whole next
  refine roundWithAccuracy_near canonical near represents ?_
  -- The places of the quotient follow from those of its parts.
  apply quotient_enough (min_le_right _ _) _ whole next
  obtain ⟨low, _⟩ := scaled_bounds firstPositive firstExponent
  obtain ⟨_, high⟩ := scaled_bounds secondPositive secondExponent
  calc (2 : ℚ) ^ (places - 1)
      = 2 ^ (totalExponent first firstExponent - 1) / 2 ^ totalExponent second secondExponent := by
        rw [← zpow_sub₀ (by norm_num)]
        congr 1
        show totalExponent first firstExponent - totalExponent second secondExponent - 1 = _
        omega
    _ < 2 ^ (totalExponent first firstExponent - 1) / (second * 2 ^ secondExponent) := by
        apply div_lt_div_of_pos_left _ _ high <;> positivity
    _ ≤ first * 2 ^ firstExponent / (second * 2 ^ secondExponent) := by
        gcongr

/-! Whole numbers and powers of ten. -/

/-- A double stands for a whole number with its leading bit in place. -/
structure Stands (x : Float) (n : Nat) : Prop where
  parts : ∃ number : Binary, ∃ canonical : number.Canonical,
    x.toModel.unpack = number.unpacked .positive canonical ∧ number.value = n ∧
      2 ^ 52 ≤ number.mantissa

/-- A whole number as a mantissa that is filled up with zeros. -/
def filled (n : Nat) : Binary := ⟨n <<< (52 - n.log2), (n.log2 : Int) - 52⟩

/-- The mantissa has its leading bit in place. -/
theorem filled_leads {n : Nat} (positive : 0 < n) (fits : n < 2 ^ 53) :
    2 ^ 52 ≤ (filled n).mantissa ∧ (filled n).mantissa < 2 ^ 53 := by
  have small : n.log2 < 53 := (Nat.log2_lt (by omega)).mpr fits
  have least : 2 ^ n.log2 ≤ n := Nat.log2_self_le (by omega)
  have most : n < 2 ^ (n.log2 + 1) := Nat.lt_log2_self
  -- The powers of two on both sides are those of the number, shifted as it is.
  have low : 2 ^ 52 = 2 ^ n.log2 * 2 ^ (52 - n.log2) := by
    rw [← pow_add]
    congr 1
    omega
  have high : 2 ^ 53 = 2 ^ (n.log2 + 1) * 2 ^ (52 - n.log2) := by
    rw [← pow_add]
    congr 1
    omega
  rw [filled, Nat.shiftLeft_eq, low, high]
  exact ⟨Nat.mul_le_mul_right _ least, Nat.mul_lt_mul_of_pos_right most (by positivity)⟩

/-- A whole number that is filled up is in the form in which a double holds it. -/
theorem filled_canonical {n : Nat} (positive : 0 < n) (fits : n < 2 ^ 53) : (filled n).Canonical := by
  have small : n.log2 < 53 := (Nat.log2_lt (by omega)).mpr fits
  obtain ⟨low, high⟩ := filled_leads positive fits
  refine ⟨by omega, high, ?_, ?_, .inr low⟩
  · show -1074 ≤ (n.log2 : Int) - 52
    omega
  · show (n.log2 : Int) - 52 ≤ 971
    omega

/-- Zeros do not change the number. -/
theorem value_filled {n : Nat} (small : n.log2 < 53) : (filled n).value = n := by
  have none : ((52 - n.log2 : Nat) : Int) + ((n.log2 : Int) - 52) = 0 := by omega
  show ((n <<< (52 - n.log2) : Nat) : ℚ) * 2 ^ ((n.log2 : Int) - 52) = n
  rw [Nat.shiftLeft_eq]
  push_cast
  rw [mul_assoc, ← zpow_natCast, ← zpow_add₀ (by norm_num), none, zpow_zero, mul_one]

/-- A number below the largest mantissa is converted as it is. -/
theorem stands_toFloat {n : Nat} (positive : 0 < n) (fits : n < 2 ^ 53) :
    Stands n.toUInt64.toFloat n := by
  have small : n.log2 < 53 := (Nat.log2_lt (by omega)).mpr fits
  have canonical := filled_canonical positive fits
  refine ⟨filled n, canonical, ?_, value_filled small, (filled_leads positive fits).1⟩
  have rounded : UnpackedFloat.ofUInt64 binary64 n.toUInt64 =
      (filled n).unpacked .positive canonical := by
    have held : n.toUInt64.toNat = n := Nat.mod_eq_of_lt (by omega)
    have above : compare (n : Int) 0 = .gt := Int.compare_eq_gt.mpr (by omega)
    -- The exponent is lowered until the mantissa is full, so that there is nothing to round.
    have target : binary64.targetExponent (totalExponent n 0) = (n.log2 : Int) - 52 := by
      rw [targetExponent_eq, totalExponent]
      omega
    have places : (0 - ((n.log2 : Int) - 52)).toNat = 52 - n.log2 := by omega
    have exponent : 0 - ((52 - n.log2 : Nat) : Int) = (n.log2 : Int) - 52 := by omega
    show UnpackedFloat.normalize binary64 (n.toUInt64.toNat : Int) 0 .positive = _
    rw [held]
    simp only [UnpackedFloat.normalize, above, UnpackedFloat.round, Int.toNat_natCast, target,
      UnpackedFloat.decreaseExponent, places, exponent]
    refine roundWithAccuracy_near canonical (filled n).near_value ?_ canonical.targetExponent.ge
    rw [Binary.value, mul_div_assoc, filled, div_self (by positivity), mul_one]
    rfl
  show (Float.ofModel (.pack (UnpackedFloat.ofUInt64 binary64 n.toUInt64))).toModel.unpack = _
  rw [rounded]
  exact (filled n).unpack_toFloat .positive canonical

/-- The bits of a double tell whether it stands for a whole number. -/
theorem stands_of_bits {x : Float} {n : Nat} (finite : x.isFinite = true)
    (positive : isNegative x = false) (leads : 2 ^ 52 ≤ (Binary.ofFloat x).mantissa)
    (same : (Binary.ofFloat x).mantissa * 2 ^ (Binary.ofFloat x).exponent.toNat =
      n * 2 ^ (-(Binary.ofFloat x).exponent).toNat) : Stands x n := by
  have isFinite : x.toModel.unpack.isFinite = true := finite
  have signed : sign x = .positive := by rw [sign, positive]; rfl
  cases kind x with
  | nan unpacked => rw [unpacked] at isFinite; cases isFinite
  | infinity unpacked => rw [unpacked] at isFinite; cases isFinite
  | zero _ none => omega
  | finite canonical unpacked =>
    rw [signed] at unpacked
    refine ⟨_, canonical, unpacked, ?_, leads⟩
    have scaled : ((Binary.ofFloat x).mantissa : ℚ) * 2 ^ (Binary.ofFloat x).exponent.toNat =
        n * 2 ^ (-(Binary.ofFloat x).exponent).toNat := by exact_mod_cast same
    rw [Binary.value]
    -- A negative power of two stands on the other side of the equation as a positive one.
    generalize (Binary.ofFloat x).exponent = exponent at scaled
    have split : exponent = (exponent.toNat : Int) - ((-exponent).toNat : Int) := by omega
    rw [split, zpow_sub₀ (by norm_num), zpow_natCast, zpow_natCast, ← mul_div_assoc, scaled]
    field_simp

/-- The table of powers of ten holds powers of ten. -/
theorem stands_powerOfTen {count : Nat} (small : count < Float.exactlyRepresentablePowersOfTen.size) :
    Stands Float.exactlyRepresentablePowersOfTen[count] (10 ^ count) := by
  -- The table is short enough to be checked entry by entry.
  have checked : ∀ (count : Nat) (small : count < Float.exactlyRepresentablePowersOfTen.size),
      let x := Float.exactlyRepresentablePowersOfTen[count]
      x.isFinite = true ∧ isNegative x = false ∧ 2 ^ 52 ≤ (Binary.ofFloat x).mantissa ∧
        (Binary.ofFloat x).mantissa * 2 ^ (Binary.ofFloat x).exponent.toNat =
          10 ^ count * 2 ^ (-(Binary.ofFloat x).exponent).toNat := by
    decide
  obtain ⟨finite, positive, leads, same⟩ := checked count small
  exact stands_of_bits finite positive leads same

/-! Decimals. -/

/-- A decimal as a number. -/
def Decimal.value (decimal : Decimal) : ℚ := decimal.digits * 10 ^ decimal.exponent

/-- A power of ten with a positive exponent is at least that of two. -/
theorem two_zpow_le_ten {exponent : Int} (positive : 0 ≤ exponent) :
    (2 : ℚ) ^ exponent ≤ 10 ^ exponent :=
  zpow_le_zpow_left₀ positive (by norm_num) (by norm_num)

/-- A power of ten with a negative exponent is at most that of two. -/
theorem ten_zpow_le_two {exponent : Int} (negative : exponent ≤ 0) :
    (10 : ℚ) ^ exponent ≤ 2 ^ exponent := by
  have inverse := two_zpow_le_ten (show 0 ≤ -exponent by omega)
  rw [zpow_neg, zpow_neg] at inverse
  exact (inv_le_inv₀ (by positivity) (by positivity)).mp inverse

/-- A decimal near a double is no power of ten that is out of reach. -/
theorem scientific_in_range {digits : Nat} {exponent : Int} (positive : 0 < digits)
    (canonical : number.Canonical) (near : number.Near (digits * 10 ^ exponent)) :
    exponent ≤ 2048 ∧ -(2048 + (digits.log2 : Int)) ≤ exponent := by
  obtain ⟨low, high⟩ := canonical.near_bounds near
  have least : (1 : ℚ) ≤ digits := by exact_mod_cast positive
  have smallest := canonical.least
  have greatest := canonical.greatest
  have ordered : ∀ {low high : Int}, (2 : ℚ) ^ low < 2 ^ high → low < high := fun below =>
    (zpow_lt_zpow_iff_right₀ (by norm_num)).mp below
  constructor
  · by_contra above
    -- A power of ten that is too large is above all doubles.
    have power : (2 : ℚ) ^ exponent ≤ digits * 10 ^ exponent :=
      calc (2 : ℚ) ^ exponent ≤ 10 ^ exponent := two_zpow_le_ten (by omega)
        _ ≤ digits * 10 ^ exponent := le_mul_of_one_le_left (by positivity) least
    have := ordered (power.trans_lt high)
    omega
  · by_contra below
    -- A power of ten that is too small is below all doubles, however many digits there are.
    have most : (digits : ℚ) < 2 ^ (digits.log2 + 1) := by exact_mod_cast Nat.lt_log2_self
    have power : digits * (10 : ℚ) ^ exponent < 2 ^ ((digits.log2 : Int) + 1 + exponent) :=
      calc digits * (10 : ℚ) ^ exponent ≤ digits * 2 ^ exponent := by
            gcongr
            exact ten_zpow_le_two (by omega)
        _ < 2 ^ (digits.log2 + 1) * 2 ^ exponent := by gcongr
        _ = 2 ^ ((digits.log2 : Int) + 1 + exponent) := by
            rw [← zpow_natCast, ← zpow_add₀ (by norm_num)]
            congr 1
    have := ordered (low.trans_lt power)
    omega

/-- A decimal near a double is converted to it, by way of the whole numbers that it is made of. -/
theorem ofScientific_near_of_large {digits : Nat} {exponent : Int} (positive : 0 < digits)
    (canonical : number.Canonical) (near : number.Near (digits * 10 ^ exponent)) :
    UnpackedFloat.ofScientific binary64 digits exponent = number.unpacked .positive canonical := by
  obtain ⟨above, below⟩ := scientific_in_range positive canonical near
  -- A decimal near a double is within the bounds in which the conversion looks at it.
  have high : ¬ exponent > 2 ^ 11 := by omega
  have low : ¬ exponent < -(2 ^ 11 + (digits.log2 : Int)) := by omega
  unfold UnpackedFloat.ofScientific
  rw [dif_neg (Nat.ne_of_gt positive), if_neg high, if_neg low]
  split
  case isTrue whole =>
    -- The digits get as many places as a mantissa has.
    refine mul_near .positive .positive canonical ?_ ?_
    · have scaled : ((digits <<< binary64.mantissaBits : Nat) : ℚ) *
          2 ^ (-(binary64.mantissaBits : Int)) * ((10 ^ exponent.toNat : Nat) * 2 ^ (0 : Int)) =
          digits * 10 ^ exponent := by
        have places : (2 : ℚ) ^ binary64.mantissaBits ≠ 0 := by positivity
        rw [Nat.shiftLeft_eq, zpow_neg, zpow_natCast, zpow_zero, zpow_of_nonneg 10 whole]
        push_cast
        field_simp
      rwa [scaled]
    · have power : 0 < 10 ^ exponent.toNat := by positivity
      rw [Nat.shiftLeft_eq]
      calc 2 ^ 52 ≤ 1 * 2 ^ 53 * 1 := by norm_num
        _ ≤ digits * 2 ^ 53 * 10 ^ exponent.toNat := by
          gcongr
          · exact positive
          · exact power
  case isFalse fraction =>
    refine div_near .positive .positive canonical ?_
    have scaled : (digits : ℚ) * 2 ^ (0 : Int) / ((10 ^ (-exponent).toNat : Nat) * 2 ^ (0 : Int)) =
        digits * 10 ^ exponent := by
      rw [zpow_zero, zpow_of_nonpos 10 (by omega : exponent ≤ 0)]
      push_cast
      field_simp
    rwa [scaled]

/-- A decimal near a double with few digits and a small power of ten is converted to it: the digits and
the power are doubles, of which the result is rounded once. -/
theorem ofScientific_near_of_small {digits : Nat} {exponent : Int} (positive : 0 < digits)
    (canonical : number.Canonical) (near : number.Near (digits * 10 ^ exponent))
    (short : digits < 2 ^ 53) (inTable : exponent.natAbs < Float.exactlyRepresentablePowersOfTen.size) :
    (if exponent < 0 then digits.toUInt64.toFloat / Float.exactlyRepresentablePowersOfTen[exponent.natAbs]
      else digits.toUInt64.toFloat * Float.exactlyRepresentablePowersOfTen[exponent.natAbs]) =
      number.toFloat .positive canonical := by
  obtain ⟨first, firstCanonical, digitParts, digitValue, leads⟩ := (stands_toFloat positive short).parts
  obtain ⟨second, secondCanonical, powerParts, powerValue, _⟩ := (stands_powerOfTen inTable).parts
  -- With a negative exponent the power divides the digits, and else it multiplies them.
  split
  case isTrue negative =>
    show Float.ofModel (.pack (UnpackedFloat.div binary64 digits.toUInt64.toFloat.toModel.unpack
      (Float.exactlyRepresentablePowersOfTen[exponent.natAbs]).toModel.unpack)) = _
    rw [digitParts, powerParts]
    congr 2
    refine div_near .positive .positive canonical ?_
    have power : (10 : ℚ) ^ exponent = ((10 ^ exponent.natAbs : Nat) : ℚ)⁻¹ := by
      have size : (-exponent).toNat = exponent.natAbs := by omega
      rw [zpow_of_nonpos 10 (Int.le_of_lt negative), size]
      push_cast
      rfl
    rwa [power, ← powerValue, ← digitValue, ← div_eq_mul_inv] at near
  case isFalse whole =>
    show Float.ofModel (.pack (UnpackedFloat.mul binary64 digits.toUInt64.toFloat.toModel.unpack
      (Float.exactlyRepresentablePowersOfTen[exponent.natAbs]).toModel.unpack)) = _
    rw [digitParts, powerParts]
    congr 2
    refine mul_near .positive .positive canonical ?_ ?_
    · have power : (10 : ℚ) ^ exponent = ((10 ^ exponent.natAbs : Nat) : ℚ) := by
        have size : exponent.toNat = exponent.natAbs := by omega
        rw [zpow_of_nonneg 10 (Int.not_lt.mp whole), size]
        push_cast
        rfl
      rwa [power, ← powerValue, ← digitValue] at near
    · calc 2 ^ 52 = 2 ^ 52 * 1 := by norm_num
        _ ≤ first.mantissa * second.mantissa := Nat.mul_le_mul leads secondCanonical.positive

/-- A decimal near a double is converted to it, also where its parts are converted first. -/
theorem ofScientific_near {digits : Nat} {exponent : Int} (positive : 0 < digits)
    (canonical : number.Canonical) (near : number.Near (digits * 10 ^ exponent)) :
    Float.ofScientific digits (exponent < 0) exponent.natAbs =
      number.toFloat .positive canonical := by
  unfold Float.ofScientific
  split
  case isFalse =>
    -- The sign of the exponent is put back first.
    have signed : (if decide (exponent < 0) = true then Int.negOfNat exponent.natAbs
        else Int.ofNat exponent.natAbs) = exponent := by
      split
      case isTrue negative =>
        have := of_decide_eq_true negative
        rw [Int.negOfNat_eq]
        show -(exponent.natAbs : Int) = exponent
        omega
      case isFalse whole =>
        have := of_decide_eq_false (Bool.eq_false_iff.mpr whole)
        show (exponent.natAbs : Int) = exponent
        omega
    rw [signed]
    show Float.ofModel (.pack (UnpackedFloat.ofScientific binary64 digits exponent)) = _
    rw [ofScientific_near_of_large positive canonical near]
    rfl
  case isTrue small =>
    simp only [decide_eq_true_eq]
    exact ofScientific_near_of_small positive canonical near small.1 (Nat.lt_succ_of_le small.2)

/-! The size of a decimal. -/

/-- A number lies between two powers of ten, as its digits say. -/
theorem toDigits_bounds {n : Nat} (positive : 0 < n) :
    10 ^ ((Nat.toDigits 10 n).length - 1) ≤ n ∧ n < 10 ^ (Nat.toDigits 10 n).length := by
  -- A number with one digit is at least one, and all others have one digit more than the power
  -- below.
  have some := Nat.length_toDigits_pos (b := 10) (n := n)
  have fits := fun {places} => Nat.length_toDigits_le_iff (b := 10) (n := n) (k := places) (by omega)
  refine ⟨?_, (fits some).mp (le_refl _)⟩
  by_cases single : (Nat.toDigits 10 n).length = 1
  · rw [single]
    exact positive
  · by_contra less
    have := (fits (by omega)).mpr (Nat.lt_of_not_le less)
    omega

/-- A decimal near a double is neither too large nor too small to be looked at. -/
theorem size_in_range {decimal : Decimal} (positive : 0 < decimal.digits)
    (canonical : number.Canonical) (near : number.Near decimal.value) :
    (Nat.toDigits 10 decimal.digits).length + decimal.exponent ≤ 310 ∧
      -330 ≤ (Nat.toDigits 10 decimal.digits).length + decimal.exponent := by
  obtain ⟨low, high⟩ := canonical.near_bounds near
  obtain ⟨least, most⟩ := toDigits_bounds positive
  have places := Nat.length_toDigits_pos (b := 10) (n := decimal.digits)
  have smallest := canonical.least
  have greatest := canonical.greatest
  unfold Decimal.value at low high
  generalize (Nat.toDigits 10 decimal.digits).length = length at *
  constructor
  · by_contra above
    -- All doubles are below 2^1024, which has 309 digits.
    have beyond : (2 : ℚ) ^ (1024 : Int) < 2 ^ (1024 : Int) :=
      calc (2 : ℚ) ^ (1024 : Int) ≤ 10 ^ (310 : Int) := by
            have checked : 2 ^ 1024 ≤ 10 ^ 310 := by decide +kernel
            exact_mod_cast checked
        _ ≤ 10 ^ (((length - 1 : Nat) : Int) + decimal.exponent) :=
          zpow_le_zpow_right₀ (by norm_num) (by omega)
        _ = (10 ^ (length - 1) : Nat) * 10 ^ decimal.exponent := by
          rw [zpow_add₀ (by norm_num), zpow_natCast]
          push_cast
          rfl
        _ ≤ decimal.digits * 10 ^ decimal.exponent := by
          gcongr
        _ < 2 ^ (number.exponent + 53) := high
        _ ≤ 2 ^ (1024 : Int) := zpow_le_zpow_right₀ (by norm_num) (by omega)
    exact lt_irrefl _ beyond
  · by_contra below
    -- What is near a double is not below half of the smallest one.
    have beyond : (2 : ℚ) ^ (-1075 : Int) < 2 ^ (-1075 : Int) :=
      calc (2 : ℚ) ^ (-1075 : Int) ≤ 2 ^ (number.exponent - 1) :=
            zpow_le_zpow_right₀ (by norm_num) (by omega)
        _ ≤ decimal.digits * 10 ^ decimal.exponent := low
        _ < (10 ^ length : Nat) * 10 ^ decimal.exponent := by
          gcongr
        _ = 10 ^ ((length : Int) + decimal.exponent) := by
          rw [zpow_add₀ (by norm_num), zpow_natCast]
          push_cast
          rfl
        _ ≤ 10 ^ (-330 : Int) := zpow_le_zpow_right₀ (by norm_num) (by omega)
        _ ≤ 2 ^ (-1075 : Int) := by
          have checked : 2 ^ 1075 ≤ 10 ^ 330 := by decide +kernel
          have inverse : (2 : ℚ) ^ (1075 : Int) ≤ 10 ^ (330 : Int) := by exact_mod_cast checked
          rw [zpow_neg, zpow_neg]
          exact inv_anti₀ (by positivity) inverse
    exact lt_irrefl _ beyond

/-- A decimal near a double is read as the double. -/
theorem ofDecimal_near {decimal : Decimal} (positive : 0 < decimal.digits)
    (canonical : number.Canonical) (near : number.Near decimal.value) :
    ofDecimal decimal = number.toFloat .positive canonical := by
  obtain ⟨above, below⟩ := size_in_range positive canonical near
  unfold ofDecimal
  rw [if_neg (Nat.ne_of_gt positive), if_neg (by omega), if_neg (by omega)]
  exact ofScientific_near positive canonical near

end ScriptEngine.Number

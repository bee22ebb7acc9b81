import ScriptEngine.Proofs.Number.Double

/-! Rounding to the nearest double: all numbers near a double round to it. -/

namespace ScriptEngine.Number

open Float.Model (UnpackedFloat totalExponent)
open Float.Model.Format (binary64)
open Float.Model.UnpackedFloat (Sign ExtendedMantissa Accuracy shiftToExponent
  shiftToTargetExponent roundWithAccuracy)

/-- A mantissa with its two further bits stands for a number of units: the first bit tells whether a
half is reached, the second whether there is anything beside it. -/
def Represents : ExtendedMantissa → ℚ → Prop
  | ⟨mantissa, false, false⟩, units => units = mantissa
  | ⟨mantissa, false, true⟩, units => mantissa < units ∧ units < mantissa + 1 / 2
  | ⟨mantissa, true, false⟩, units => units = mantissa + 1 / 2
  | ⟨mantissa, true, true⟩, units => mantissa + 1 / 2 < units ∧ units < mantissa + 1

/-- An accuracy leaves the mantissa as it is. -/
theorem ofMantissaAndAccuracy_mantissa (mantissa : Nat) (accuracy : Accuracy) :
    (ExtendedMantissa.ofMantissaAndAccuracy mantissa accuracy).mantissa = mantissa := by
  cases accuracy with
  | exact => rfl
  | inexact order => cases order <;> rfl

/-- The mantissa counts the whole units. -/
theorem Represents.whole {extended : ExtendedMantissa} {units : ℚ}
    (represents : Represents extended units) :
    (extended.mantissa : ℚ) ≤ units ∧ units < extended.mantissa + 1 := by
  obtain ⟨mantissa, _ | _, _ | _⟩ := extended
  all_goals
    simp only [Represents] at represents ⊢
    constructor <;> linarith

/-- A quotient with the accuracy that its remainder gives stands for the fraction. -/
theorem represents_quotient (numerator : Nat) {denominator : Nat} (positive : 0 < denominator) :
    Represents (.ofMantissaAndAccuracy (numerator / denominator)
      (UnpackedFloat.accuracyOfFraction (numerator % denominator) denominator))
      (numerator / denominator) := by
  have scale : (0 : ℚ) < denominator := by exact_mod_cast positive
  have split : (numerator : ℚ) / denominator =
      (numerator / denominator : Nat) + (numerator % denominator : Nat) / denominator := by
    have parts : (numerator : ℚ) =
        denominator * (numerator / denominator : Nat) + (numerator % denominator : Nat) := by
      exact_mod_cast (Nat.div_add_mod numerator denominator).symm
    field_simp
    linarith
  have small : numerator % denominator < denominator := Nat.mod_lt _ positive
  -- Only the whole part and the rest matter from here on.
  generalize numerator / denominator = mantissa at *
  generalize numerator % denominator = rest at *
  have most : (rest : ℚ) / denominator < 1 := by
    rw [div_lt_one scale]
    exact_mod_cast small
  -- Twice the rest against the denominator tells whether it reaches the half of a unit.
  have against : (rest : ℚ) / denominator = (2 * rest : Nat) / denominator / 2 := by
    push_cast
    field_simp
  rw [split]
  unfold UnpackedFloat.accuracyOfFraction
  by_cases none : rest = 0
  · rw [if_pos none, none, Nat.cast_zero, zero_div, add_zero]
    rfl
  have some : 0 < (rest : ℚ) / denominator := by
    have : (0 : ℚ) < rest := by exact_mod_cast Nat.pos_of_ne_zero none
    positivity
  rw [if_neg none]
  rcases Nat.lt_trichotomy (2 * rest) denominator with less | same | more
  · have half : ((2 * rest : Nat) : ℚ) / denominator < 1 := by
      rw [div_lt_one scale]
      exact_mod_cast less
    rw [Nat.compare_eq_lt.mpr less]
    show _ < _ ∧ _ < _
    constructor <;> linarith
  · have half : ((2 * rest : Nat) : ℚ) / denominator = 1 := by
      rw [same, div_self (ne_of_gt scale)]
    rw [Nat.compare_eq_eq.mpr same]
    show _ = _
    linarith
  · have half : 1 < ((2 * rest : Nat) : ℚ) / denominator := by
      rw [one_lt_div scale]
      exact_mod_cast more
    rw [Nat.compare_eq_gt.mpr more]
    show _ < _ ∧ _ < _
    constructor <;> linarith

/-- With one bit less the unit is twice as large. -/
theorem Represents.shiftRightOne {extended : ExtendedMantissa} {units : ℚ}
    (represents : Represents extended units) : Represents extended.shiftRightOne (units / 2) := by
  obtain ⟨mantissa, half, other⟩ := extended
  -- The bit that is dropped decides on which side of the new half the number lies.
  obtain ⟨rest, rfl | rfl⟩ : ∃ rest, mantissa = 2 * rest ∨ mantissa = 2 * rest + 1 :=
    ⟨mantissa / 2, by omega⟩
  · have shifted : ExtendedMantissa.shiftRightOne ⟨2 * rest, half, other⟩ =
        ⟨rest, false, half || other⟩ := by
      simp [ExtendedMantissa.shiftRightOne]
    rw [shifted]
    cases half <;> cases other
    all_goals
      simp only [Represents, Bool.or_false, Bool.or_true, Nat.cast_mul, Nat.cast_ofNat]
        at represents ⊢
      first
        | linarith
        | constructor <;> linarith
  · have shifted : ExtendedMantissa.shiftRightOne ⟨2 * rest + 1, half, other⟩ =
        ⟨rest, true, half || other⟩ := by
      simp [ExtendedMantissa.shiftRightOne, Nat.mul_add_div]
    rw [shifted]
    cases half <;> cases other
    all_goals
      simp only [Represents, Bool.or_false, Bool.or_true, Nat.cast_add, Nat.cast_mul,
        Nat.cast_ofNat, Nat.cast_one] at represents ⊢
      first
        | linarith
        | constructor <;> linarith

/-- With some bits less the unit is larger by a power of two. -/
theorem Represents.shift {extended : ExtendedMantissa} {units : ℚ}
    (represents : Represents extended units) (count : Nat) :
    Represents (extended >>> count) (units / 2 ^ count) := by
  induction count with
  | zero =>
    show Represents extended (units / 2 ^ 0)
    rwa [pow_zero, div_one]
  | succ count ih =>
    have one := ih.shiftRightOne
    rwa [div_div, ← pow_succ] at one

/-- A number of units is rounded to the mantissa nearest to it; a half goes to the even one. -/
theorem Represents.rounded {extended : ExtendedMantissa} {units : ℚ} {nearest : Nat}
    (represents : Represents extended units) (low : (nearest : ℚ) - 1 / 2 ≤ units)
    (high : units ≤ nearest + 1 / 2)
    (odd : nearest % 2 = 1 → (nearest : ℚ) - 1 / 2 < units ∧ units < nearest + 1 / 2) :
    extended.roundedMantissa = nearest := by
  -- The nearest mantissa is the one below the number or the one above it.
  obtain ⟨whole, next⟩ := represents.whole
  obtain ⟨mantissa, half, other⟩ := extended
  dsimp only at whole next
  have above : mantissa < nearest + 1 := by
    have : (mantissa : ℚ) < nearest + 1 := by linarith
    exact_mod_cast this
  have below : nearest < mantissa + 2 := by
    have : (nearest : ℚ) < mantissa + 2 := by linarith
    exact_mod_cast this
  obtain rfl | rfl : mantissa = nearest ∨ nearest = mantissa + 1 := by omega
  all_goals push_cast at low high odd
  · -- A half is reached only from an even mantissa, to which it goes.
    cases half <;> cases other <;> simp only [Represents] at represents
    case false.false => rfl
    case false.true => rfl
    case true.false =>
      have even : mantissa % 2 ≠ 1 := fun isOdd => by linarith [odd isOdd]
      show mantissa + mantissa % 2 = mantissa
      omega
    case true.true => linarith
  · -- A half goes up only from an odd mantissa.
    cases half <;> cases other <;> simp only [Represents] at represents
    case false.false => linarith
    case false.true => linarith
    case true.false =>
      have even : (mantissa + 1) % 2 ≠ 1 := fun isOdd => by linarith [odd isOdd]
      show mantissa + mantissa % 2 = mantissa + 1
      omega
    case true.true => rfl

/-! The exponent that a number gets. -/

/-- Places in front of an exponent are a factor. -/
theorem two_zpow_add (exponent : Int) (places : Nat) :
    (2 : ℚ) ^ (exponent + places) = 2 ^ places * 2 ^ exponent := by
  rw [zpow_add₀ (by norm_num), zpow_natCast, mul_comm]

/-- A power whose exponent is not negative is one with a natural number. -/
theorem zpow_of_nonneg (base : ℚ) {exponent : Int} (whole : 0 ≤ exponent) :
    base ^ exponent = base ^ exponent.toNat := by
  rw [← zpow_natCast, Int.toNat_of_nonneg whole]

/-- A power whose exponent is not positive is a fraction of one with a natural number. -/
theorem zpow_of_nonpos (base : ℚ) {exponent : Int} (fraction : exponent ≤ 0) :
    base ^ exponent = (base ^ (-exponent).toNat)⁻¹ := by
  rw [← zpow_of_nonneg base (by omega), zpow_neg, inv_inv]

/-- The exponent at which a number keeps all its places. -/
theorem targetExponent_eq (total : Int) :
    binary64.targetExponent total = max (total - 53) (-1074) := rfl

/-- The position of the leading bit bounds a number from both sides. -/
theorem totalExponent_bounds {mantissa : Nat} {exponent : Int} {q : ℚ} (positive : 0 < mantissa)
    (whole : (mantissa : ℚ) ≤ q / 2 ^ exponent) (next : q / 2 ^ exponent < mantissa + 1) :
    (2 : ℚ) ^ (totalExponent mantissa exponent - 1) ≤ q ∧
      q < 2 ^ totalExponent mantissa exponent := by
  have unit : (0 : ℚ) < 2 ^ exponent := by positivity
  -- The leading bit of the whole part is that of the number.
  have least : (2 : ℚ) ^ mantissa.log2 ≤ mantissa := by
    exact_mod_cast Nat.log2_self_le (Nat.ne_of_gt positive)
  have most : (mantissa : ℚ) + 1 ≤ 2 ^ (mantissa.log2 + 1) := by
    exact_mod_cast Nat.lt_log2_self
  rw [le_div_iff₀ unit] at whole
  rw [div_lt_iff₀ unit] at next
  unfold totalExponent
  constructor
  · calc (2 : ℚ) ^ ((mantissa.log2 : Int) + 1 + exponent - 1)
        = 2 ^ mantissa.log2 * 2 ^ exponent := by
          rw [← zpow_natCast, ← zpow_add₀ (by norm_num)]
          congr 1
          omega
      _ ≤ mantissa * 2 ^ exponent := by gcongr
      _ ≤ q := whole
  · calc q < (mantissa + 1) * 2 ^ exponent := next
      _ ≤ 2 ^ (mantissa.log2 + 1) * 2 ^ exponent := by gcongr
      _ = 2 ^ ((mantissa.log2 : Int) + 1 + exponent) := by
          rw [← zpow_natCast, ← zpow_add₀ (by norm_num)]
          congr 1

/-- What is shifted to the exponent at which it keeps all its places stands for the same number. -/
theorem shiftToTargetExponent_eq {mantissa : Nat} {exponent target : Int} {accuracy : Accuracy}
    {q : ℚ} (represents : Represents (.ofMantissaAndAccuracy mantissa accuracy) (q / 2 ^ exponent))
    (isTarget : binary64.targetExponent (totalExponent mantissa exponent) = target)
    (enough : exponent ≤ target) :
    (shiftToTargetExponent binary64 mantissa exponent accuracy).2 = target ∧
      Represents (shiftToTargetExponent binary64 mantissa exponent accuracy).1 (q / 2 ^ target) := by
  subst isTarget
  -- The exponent only grows, by as many places as there are too many.
  constructor
  · show exponent + ((binary64.targetExponent (totalExponent mantissa exponent) - exponent).toNat) = _
    omega
  · have shifted := represents.shift
      (binary64.targetExponent (totalExponent mantissa exponent) - exponent).toNat
    rw [div_div, ← zpow_natCast, ← zpow_add₀ (by norm_num)] at shifted
    have passed : exponent + ((binary64.targetExponent (totalExponent mantissa exponent) -
        exponent).toNat : Int) = binary64.targetExponent (totalExponent mantissa exponent) := by
      omega
    rwa [passed] at shifted

/-! The numbers that round to a double. -/

/-- How far below a magnitude the numbers that round to it may lie, in units of its last place. Under
a power of two the next double is only half as far away. -/
def Binary.reach (number : Binary) : ℚ := if number.mantissa = leadingBit then 1 / 4 else 1 / 2

/-- A number lies near a magnitude: no double is nearer, and a half way is near an even mantissa
only. -/
structure Binary.Near (number : Binary) (q : ℚ) : Prop where
  low : (number.mantissa - number.reach) * 2 ^ number.exponent ≤ q
  high : q ≤ (number.mantissa + 1 / 2) * 2 ^ number.exponent
  odd : number.mantissa % 2 = 1 →
    (number.mantissa - number.reach) * 2 ^ number.exponent < q ∧
      q < (number.mantissa + 1 / 2) * 2 ^ number.exponent

/-- The magnitude as a number. -/
def Binary.value (number : Binary) : ℚ := number.mantissa * 2 ^ number.exponent

variable {number : Binary} {q : ℚ}

/-- The reach is positive and at most a half. -/
theorem Binary.reach_bounds (number : Binary) : 0 < number.reach ∧ number.reach ≤ 1 / 2 := by
  unfold reach
  split <;> norm_num

/-- A magnitude lies near itself. -/
theorem Binary.near_value (number : Binary) : number.Near number.value := by
  -- The magnitude is the middle of what is near it.
  have unit : (0 : ℚ) < 2 ^ number.exponent := by positivity
  obtain ⟨positive, _⟩ := number.reach_bounds
  unfold value
  have low : (number.mantissa - number.reach) * 2 ^ number.exponent <
      number.mantissa * 2 ^ number.exponent := by
    apply mul_lt_mul_of_pos_right _ unit
    linarith
  have high : (number.mantissa : ℚ) * 2 ^ number.exponent <
      (number.mantissa + 1 / 2) * 2 ^ number.exponent := by
    apply mul_lt_mul_of_pos_right _ unit
    linarith
  exact ⟨low.le, high.le, fun _ => ⟨low, high⟩⟩

/-- Magnitudes are bounded by the number of their places. -/
theorem Binary.Canonical.near_bounds (canonical : number.Canonical) (near : number.Near q) :
    (2 : ℚ) ^ (number.exponent - 1) ≤ q ∧ q < 2 ^ (number.exponent + 53) := by
  have unit : (0 : ℚ) < 2 ^ number.exponent := by positivity
  obtain ⟨_, reach⟩ := number.reach_bounds
  have least : (1 : ℚ) ≤ number.mantissa := by exact_mod_cast canonical.positive
  have most : (number.mantissa : ℚ) + 1 ≤ 2 ^ 53 := by exact_mod_cast canonical.fits
  -- Below lies at least half a unit of the least mantissa, and above less than a unit of the
  -- largest.
  constructor
  · calc (2 : ℚ) ^ (number.exponent - 1) = 1 / 2 * 2 ^ number.exponent := by
          rw [zpow_sub_one₀ (by norm_num)]
          ring
      _ ≤ (number.mantissa - number.reach) * 2 ^ number.exponent := by
          apply mul_le_mul_of_nonneg_right _ unit.le
          linarith
      _ ≤ q := near.low
  · calc q ≤ (number.mantissa + 1 / 2) * 2 ^ number.exponent := near.high
      _ < 2 ^ 53 * 2 ^ number.exponent := by
          apply mul_lt_mul_of_pos_right _ unit
          linarith
      _ = 2 ^ (number.exponent + 53) := (two_zpow_add _ 53).symm

/-- The leading place of a magnitude in its form. -/
theorem Binary.Canonical.targetExponent (canonical : number.Canonical) :
    binary64.targetExponent (totalExponent number.mantissa number.exponent) = number.exponent := by
  obtain ⟨positive, fits, least, greatest, leads⟩ := canonical
  -- The leading bit is the 53rd one, unless the exponent is the smallest.
  have most := (Nat.log2_lt (n := number.mantissa) (k := 53) (by omega)).mpr fits
  rw [targetExponent_eq]
  unfold totalExponent
  rcases leads with smallest | leads
  · omega
  · have := (Nat.le_log2 (n := number.mantissa) (k := 52) (by omega)).mpr leads
    omega

/-! Rounding. -/

/-- A magnitude in its form is not rounded any further. -/
theorem Binary.Canonical.shift_exact (canonical : number.Canonical) :
    (shiftToTargetExponent binary64 number.mantissa number.exponent .exact).1.mantissa =
        number.mantissa ∧
      (shiftToTargetExponent binary64 number.mantissa number.exponent .exact).2 =
        number.exponent := by
  have places : (number.exponent - number.exponent).toNat = 0 := by omega
  unfold shiftToTargetExponent
  simp only [canonical.targetExponent, shiftToExponent, places]
  exact ⟨rfl, Int.add_zero _⟩

/-- A mantissa with one bit too many loses it. -/
theorem shift_carry {exponent : Int} (least : -1074 ≤ exponent) :
    (shiftToTargetExponent binary64 (2 ^ 53) exponent .exact).1.mantissa = 2 ^ 52 ∧
      (shiftToTargetExponent binary64 (2 ^ 53) exponent .exact).2 = exponent + 1 := by
  have target : binary64.targetExponent (totalExponent (2 ^ 53) exponent) = exponent + 1 := by
    rw [targetExponent_eq, totalExponent, Nat.log2_two_pow]
    omega
  have places : (exponent + 1 - exponent).toNat = 1 := by omega
  unfold shiftToTargetExponent
  simp only [target, shiftToExponent, places]
  exact ⟨rfl, rfl⟩

/-- What is rounded is given by its mantissa and its exponent behind the second shift. -/
theorem roundWithAccuracy_of_shifts {sign : Sign} {mantissa rounded : Nat} {exponent target : Int}
    {accuracy : Accuracy} (canonical : number.Canonical)
    (first : (shiftToTargetExponent binary64 mantissa exponent accuracy).1.roundedMantissa = rounded)
    (shifted : (shiftToTargetExponent binary64 mantissa exponent accuracy).2 = target)
    (second : (shiftToTargetExponent binary64 rounded target .exact).1.mantissa = number.mantissa ∧
      (shiftToTargetExponent binary64 rounded target .exact).2 = number.exponent) :
    roundWithAccuracy binary64 sign mantissa exponent accuracy = number.unpacked sign canonical := by
  subst first shifted
  have nonzero : number.mantissa ≠ 0 := Nat.ne_of_gt canonical.positive
  unfold roundWithAccuracy Binary.unpacked
  dsimp only
  rw [dif_neg (by rw [second.1]; exact nonzero), UnpackedFloat.finite.injEq]
  exact ⟨rfl, second⟩

/-- Under its leading place, only a power of two has numbers near it, and none of them is less than half
of it. -/
theorem Binary.Near.power_of_under (near : number.Near q) (leads : 2 ^ 52 ≤ number.mantissa)
    (under : q < 2 ^ (number.exponent + 52)) :
    number.mantissa = 2 ^ 52 ∧ (2 : ℚ) ^ (number.exponent + 51) ≤ q := by
  have unit : (0 : ℚ) < 2 ^ number.exponent := by positivity
  have power : (2 : ℚ) ^ (number.exponent + 52) = 2 ^ 52 * 2 ^ number.exponent := two_zpow_add _ 52
  obtain ⟨_, reach⟩ := number.reach_bounds
  -- The mantissa is within reach of the leading place, and not below it.
  have close : number.mantissa - number.reach < (2 : ℚ) ^ 52 := by
    have := near.low.trans_lt under
    rw [power] at this
    exact lt_of_mul_lt_mul_right this unit.le
  have exactly : number.mantissa = 2 ^ 52 := by
    have : (number.mantissa : ℚ) < (2 ^ 52 + 1 : Nat) := by
      push_cast
      linarith
    have : number.mantissa < 2 ^ 52 + 1 := by exact_mod_cast this
    omega
  refine ⟨exactly, ?_⟩
  calc (2 : ℚ) ^ (number.exponent + 51) = 2 ^ 51 * 2 ^ number.exponent := two_zpow_add _ 51
    _ ≤ (number.mantissa - number.reach) * 2 ^ number.exponent := by
        apply mul_le_mul_of_nonneg_right _ unit.le
        rw [exactly]
        push_cast
        linarith
    _ ≤ q := near.low

/-- A number near a double keeps its places at the exponent of the double, or just below a power of
two at the next smaller one. -/
theorem Binary.Near.target {mantissa : Nat} {exponent : Int} {accuracy : Accuracy}
    (near : number.Near q) (canonical : number.Canonical)
    (represents : Represents (.ofMantissaAndAccuracy mantissa accuracy) (q / 2 ^ exponent))
    (enough : exponent ≤ binary64.targetExponent (totalExponent mantissa exponent)) :
    binary64.targetExponent (totalExponent mantissa exponent) = number.exponent ∨
      binary64.targetExponent (totalExponent mantissa exponent) = number.exponent - 1 ∧
        number.mantissa = 2 ^ 52 ∧ q < 2 ^ (number.exponent + 52) := by
  obtain ⟨least, most⟩ := canonical.near_bounds near
  obtain ⟨whole, next⟩ := represents.whole
  rw [ofMantissaAndAccuracy_mantissa] at whole next
  -- Bounds of the number by powers of two bound its leading place.
  have ordered : ∀ {low high : Int}, (2 : ℚ) ^ low < 2 ^ high → low < high := fun below =>
    (zpow_lt_zpow_iff_right₀ (by norm_num)).mp below
  rw [targetExponent_eq] at enough ⊢
  have smallest := canonical.least
  by_cases none : mantissa = 0
  · -- Less than one unit is near the smallest double only.
    subst none
    have unit : (0 : ℚ) < 2 ^ exponent := by positivity
    rw [Nat.cast_zero, zero_add, div_lt_one unit] at next
    have := ordered (least.trans_lt next)
    unfold totalExponent at enough ⊢
    have log : Nat.log2 0 = 0 := by decide
    rw [log] at enough ⊢
    omega
  · obtain ⟨low, high⟩ := totalExponent_bounds (Nat.pos_of_ne_zero none) whole next
    -- The leading place is not above that of the double, so it is the same one or one below.
    have upper := ordered (low.trans_lt most)
    by_cases isSmallest : number.exponent = -1074
    · omega
    have leads := canonical.leads.resolve_left isSmallest
    rcases le_or_gt ((2 : ℚ) ^ (number.exponent + 52)) q with reached | under
    · have := ordered (reached.trans_lt high)
      omega
    · -- Only a power of two has numbers near it that have fewer places.
      obtain ⟨exactly, above⟩ := near.power_of_under leads under
      have := ordered (above.trans_lt high)
      have := ordered (low.trans_lt under)
      refine .inr ⟨?_, exactly, under⟩
      omega

/-- A number near a double is rounded to it, if it is given with enough places. -/
theorem roundWithAccuracy_near {sign : Sign} {mantissa : Nat} {exponent : Int} {accuracy : Accuracy}
    (canonical : number.Canonical) (near : number.Near q)
    (represents : Represents (.ofMantissaAndAccuracy mantissa accuracy) (q / 2 ^ exponent))
    (enough : exponent ≤ binary64.targetExponent (totalExponent mantissa exponent)) :
    roundWithAccuracy binary64 sign mantissa exponent accuracy = number.unpacked sign canonical := by
  have unit : (0 : ℚ) < 2 ^ number.exponent := by positivity
  obtain ⟨_, reach⟩ := number.reach_bounds
  have low := near.low
  have high := near.high
  have odd := near.odd
  -- The bounds are taken in units of the last place.
  rw [← le_div_iff₀ unit] at low
  rw [← div_le_iff₀ unit] at high
  rw [← lt_div_iff₀ unit, ← div_lt_iff₀ unit] at odd
  rcases near.target canonical represents enough with target | ⟨target, power, under⟩
  · obtain ⟨shifted, stands⟩ := shiftToTargetExponent_eq represents target (target ▸ enough)
    -- At the exponent of the double, rounding gives its mantissa, and the second shift changes nothing.
    refine roundWithAccuracy_of_shifts canonical ?_ shifted canonical.shift_exact
    exact stands.rounded (by linarith) (by linarith) fun isOdd =>
      ⟨by linarith [(odd isOdd).1], by linarith [(odd isOdd).2]⟩
  · -- In the smaller unit the number is rounded up to the power of two, which needs one bit more.
    obtain ⟨shifted, stands⟩ := shiftToTargetExponent_eq represents target (target ▸ enough)
    have smallest := targetExponent_eq (totalExponent mantissa exponent)
    rw [target] at smallest
    have half : q / 2 ^ (number.exponent - 1) = 2 * (q / 2 ^ number.exponent) := by
      rw [zpow_sub_one₀ (by norm_num)]
      field_simp
    have places : q / 2 ^ number.exponent < 2 ^ 52 := by
      rw [div_lt_iff₀ unit]
      exact under.trans_eq (two_zpow_add _ 52)
    have leading : number.mantissa = leadingBit := power
    have quarter : number.reach = 1 / 4 := if_pos leading
    rw [power, quarter] at low
    rw [half] at stands
    push_cast at low
    have rounded : (shiftToTargetExponent binary64 mantissa exponent accuracy).1.roundedMantissa =
        2 ^ 53 := by
      refine stands.rounded ?_ ?_ fun isOdd => absurd isOdd (by norm_num)
      · push_cast
        linarith
      · push_cast
        linarith
    have carried := shift_carry (show -1074 ≤ number.exponent - 1 by omega)
    rw [← power, Int.sub_add_cancel] at carried
    exact roundWithAccuracy_of_shifts canonical rounded shifted carried

end ScriptEngine.Number

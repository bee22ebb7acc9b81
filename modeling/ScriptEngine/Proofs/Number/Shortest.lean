import ScriptEngine.Proofs.Number.Decimal

/-! The shortest decimal of a double lies near the double, so that it is read as it. -/

namespace ScriptEngine.Number

/-! Ratios. -/

/-- A ratio as a number. -/
def Ratio.value (ratio : Ratio) : ℚ := ratio.numerator / ratio.denominator

/-- A scaled number as a ratio has a positive denominator. -/
theorem Ratio.ofScaled_positive (digits : Nat) {base : Nat} (positive : 0 < base) (exponent : Int) :
    0 < (Ratio.ofScaled digits base exponent).denominator :=
  Nat.pow_pos positive

/-- A scaled number as a ratio is this number. -/
theorem Ratio.value_ofScaled (digits : Nat) {base : Nat} (positive : 0 < base) (exponent : Int) :
    (Ratio.ofScaled digits base exponent).value = digits * (base : ℚ) ^ exponent := by
  have nonzero : (base : ℚ) ≠ 0 := by
    have : (0 : ℚ) < base := by exact_mod_cast positive
    exact ne_of_gt this
  show ((digits * base ^ exponent.toNat : Nat) : ℚ) / (base ^ (-exponent).toNat : Nat) = _
  -- One of the two powers is 1, as the sign of the exponent says.
  have split : exponent = (exponent.toNat : Int) - ((-exponent).toNat : Int) := by omega
  push_cast
  conv_rhs => rw [split, zpow_sub₀ nonzero, zpow_natCast, zpow_natCast]
  rw [mul_div_assoc]

variable {left right : Ratio}

/-- The order of ratios is that of the numbers. -/
theorem Ratio.le_iff (leftPositive : 0 < left.denominator) (rightPositive : 0 < right.denominator) :
    left.le right = true ↔ left.value ≤ right.value := by
  have first : (0 : ℚ) < left.denominator := by exact_mod_cast leftPositive
  have second : (0 : ℚ) < right.denominator := by exact_mod_cast rightPositive
  rw [Ratio.le, decide_eq_true_iff, Ratio.value, Ratio.value, div_le_div_iff₀ first second]
  norm_cast

/-- The strict order of ratios is that of the numbers. -/
theorem Ratio.lt_iff (leftPositive : 0 < left.denominator) (rightPositive : 0 < right.denominator) :
    left.lt right = true ↔ left.value < right.value := by
  have first : (0 : ℚ) < left.denominator := by exact_mod_cast leftPositive
  have second : (0 : ℚ) < right.denominator := by exact_mod_cast rightPositive
  rw [Ratio.lt, decide_eq_true_iff, Ratio.value, Ratio.value, div_lt_div_iff₀ first second]
  norm_cast

/-! The interval of a double. -/

variable {number : Binary}

/-- The ends of an interval lie as far from the double as what rounds to it. -/
theorem Interval.value_ofBinary (positive : 0 < number.mantissa) :
    (Interval.ofBinary number).low.value =
        (number.mantissa - number.reach) * 2 ^ number.exponent ∧
      (Interval.ofBinary number).high.value =
        (number.mantissa + 1 / 2) * 2 ^ number.exponent := by
  -- The ends are given in quarters of the last place.
  have quarter : (2 : ℚ) ^ (number.exponent - 2) = 2 ^ number.exponent / 4 := by
    rw [zpow_sub₀ (by norm_num)]
    norm_num
  constructor
  · show (Ratio.ofScaled (4 * number.mantissa - if number.mantissa = leadingBit then 1 else 2) 2
      (number.exponent - 2)).value = _
    rw [Ratio.value_ofScaled _ (by decide), Nat.cast_ofNat, quarter, Binary.reach]
    split
    case isTrue =>
      rw [Nat.cast_sub (by omega)]
      push_cast
      ring
    case isFalse =>
      rw [Nat.cast_sub (by omega)]
      push_cast
      ring
  · show (Ratio.ofScaled (4 * number.mantissa + 2) 2 (number.exponent - 2)).value = _
    rw [Ratio.value_ofScaled _ (by decide), Nat.cast_ofNat, quarter]
    push_cast
    ring

/-- An interval contains exactly the decimals near its double. -/
theorem Interval.contains_iff (positive : 0 < number.mantissa) (decimal : Decimal) :
    (Interval.ofBinary number).contains decimal = true ↔ number.Near decimal.value := by
  obtain ⟨low, high⟩ := Interval.value_ofBinary positive
  -- The point and the ends are compared as fractions.
  have point : (Ratio.ofScaled decimal.digits 10 decimal.exponent).value = decimal.value := by
    rw [Ratio.value_ofScaled _ (by decide), Decimal.value, Nat.cast_ofNat]
  have lowPositive : 0 < (Interval.ofBinary number).low.denominator :=
    Ratio.ofScaled_positive _ (by decide) _
  have highPositive : 0 < (Interval.ofBinary number).high.denominator :=
    Ratio.ofScaled_positive _ (by decide) _
  have pointPositive : 0 < (Ratio.ofScaled decimal.digits 10 decimal.exponent).denominator :=
    Ratio.ofScaled_positive _ (by decide) _
  -- The ends themselves round to the double if its mantissa is even.
  have closed : (Interval.ofBinary number).closed = true ↔ number.mantissa % 2 = 0 := by
    show (number.mantissa % 2 == 0) = true ↔ _
    simp
  unfold Interval.contains
  dsimp only
  split
  case isTrue isClosed =>
    rw [Bool.and_eq_true, Ratio.le_iff lowPositive pointPositive,
      Ratio.le_iff pointPositive highPositive, low, high, point]
    have even := closed.mp isClosed
    exact ⟨fun ⟨above, below⟩ => ⟨above, below, fun odd => by omega⟩,
      fun near => ⟨near.low, near.high⟩⟩
  case isFalse isOpen =>
    rw [Bool.and_eq_true, Ratio.lt_iff lowPositive pointPositive,
      Ratio.lt_iff pointPositive highPositive, low, high, point]
    have odd : number.mantissa % 2 = 1 := by
      have := mt closed.mpr isOpen
      omega
    exact ⟨fun ⟨above, below⟩ => ⟨above.le, below.le, fun _ => ⟨above, below⟩⟩,
      fun near => near.odd odd⟩

/-! Grids of decimals. -/

/-- What is found on a grid lies in the interval. -/
theorem Interval.contains_onGrid {interval : Interval} {exponent : Int} {decimal : Decimal}
    (found : interval.onGrid? exponent = some decimal) : interval.contains decimal = true := by
  unfold Interval.onGrid? at found
  dsimp only at found
  -- One of the two neighbours on the grid is taken, and only one that the interval contains.
  split at found
  case h_1 lower upper =>
    cases found
    split
    · exact upper
    · exact lower
  case h_2 lower _ => cases found; exact lower
  case h_3 _ upper => cases found; exact upper
  case h_4 => cases found

/-- The whole part of a ratio lies at most one below it. -/
theorem Ratio.floor_bounds (ratio : Ratio) (positive : 0 < ratio.denominator) :
    ((ratio.numerator / ratio.denominator : Nat) : ℚ) ≤ ratio.value ∧
      ratio.value < (ratio.numerator / ratio.denominator : Nat) + 1 := by
  have represents := represents_quotient ratio.numerator positive
  obtain ⟨whole, next⟩ := represents.whole
  rw [ofMantissaAndAccuracy_mantissa] at whole next
  exact ⟨whole, next⟩

/-- One of the two multiples around a double is near it, if they are nearer to each other than its
neighbours. -/
theorem near_of_fine {lower upper : ℚ} (below : lower ≤ number.value) (above : number.value < upper)
    (fine : upper - lower < 3 / 4 * 2 ^ number.exponent) : number.Near lower ∨ number.Near upper := by
  have unit : (0 : ℚ) < 2 ^ number.exponent := by positivity
  have reach : 1 / 4 ≤ number.reach := by
    unfold Binary.reach
    split <;> norm_num
  unfold Binary.value at below above
  -- Not both of them can be as far away as the ends of the interval.
  rcases lt_or_ge ((number.mantissa - number.reach) * 2 ^ number.exponent) lower with inside | far
  · have high : lower < (number.mantissa + 1 / 2) * 2 ^ number.exponent := by nlinarith
    exact .inl ⟨inside.le, high.le, fun _ => ⟨inside, high⟩⟩
  · have low : (number.mantissa - number.reach) * 2 ^ number.exponent < upper := by nlinarith
    have high : upper < (number.mantissa + 1 / 2) * 2 ^ number.exponent := by nlinarith
    exact .inr ⟨low.le, high.le, fun _ => ⟨low, high⟩⟩

/-- Something is found on a grid that is finer than the interval. -/
theorem Interval.onGrid_of_fine (positive : 0 < number.mantissa) {exponent : Int}
    (fine : (10 : ℚ) ^ exponent < 3 / 4 * 2 ^ number.exponent) :
    ((Interval.ofBinary number).onGrid? exponent).isSome = true := by
  -- The two multiples around the double are those that the search looks at.
  let unit := Ratio.ofScaled 1 10 exponent
  let center := (Interval.ofBinary number).value
  let scaled : Ratio := ⟨center.numerator * unit.denominator, center.denominator * unit.numerator⟩
  let floor := scaled.numerator / scaled.denominator
  have unitValue : unit.value = 10 ^ exponent := by
    rw [Ratio.value_ofScaled _ (by decide)]
    push_cast
    ring
  have centerValue : center.value = number.value := by
    show (Ratio.ofScaled (4 * number.mantissa) 2 (number.exponent - 2)).value = _
    rw [Ratio.value_ofScaled _ (by decide), Binary.value, Nat.cast_ofNat, zpow_sub₀ (by norm_num)]
    push_cast
    ring
  have centerPositive : 0 < center.denominator := Ratio.ofScaled_positive _ (by decide) _
  have unitPositive : 0 < unit.numerator :=
    Nat.mul_pos (by decide) (Nat.pow_pos (by decide : 0 < 10))
  have scaledValue : scaled.value = number.value / 10 ^ exponent := by
    rw [← unitValue, ← centerValue]
    show ((center.numerator * unit.denominator : Nat) : ℚ) /
      (center.denominator * unit.numerator : Nat) = center.numerator / center.denominator /
        (unit.numerator / unit.denominator)
    push_cast
    rw [div_div_div_eq]
  obtain ⟨whole, next⟩ := Ratio.floor_bounds scaled (Nat.mul_pos centerPositive unitPositive)
  have step : (0 : ℚ) < 10 ^ exponent := by positivity
  rw [scaledValue, le_div_iff₀ step] at whole
  rw [scaledValue, div_lt_iff₀ step] at next
  have near : number.Near (floor * 10 ^ exponent) ∨ number.Near ((floor + 1) * 10 ^ exponent) :=
    near_of_fine whole next (by linarith)
  have nearLower := Interval.contains_iff positive ⟨floor, exponent⟩
  have nearUpper := Interval.contains_iff positive ⟨floor + 1, exponent⟩
  rw [Decimal.value] at nearLower nearUpper
  rw [Nat.cast_add, Nat.cast_one] at nearUpper
  rw [← nearLower, ← nearUpper] at near
  unfold Interval.onGrid?
  dsimp only
  split
  case h_1 | h_2 | h_3 => rfl
  case h_4 noLower noUpper =>
    rcases near with lower | upper
    · exact absurd (noLower.symm.trans lower) (by decide)
    · exact absurd (noUpper.symm.trans upper) (by decide)

/-- A search finds something in the interval if the last grid is finer than it. -/
theorem Interval.contains_search (positive : 0 < number.mantissa) {exponent : Int} {count : Nat}
    (fine : (10 : ℚ) ^ (exponent - count) < 3 / 4 * 2 ^ number.exponent) :
    (Interval.ofBinary number).contains ((Interval.ofBinary number).search exponent count) =
      true := by
  -- The induction is on the number of finer grids that are left; the last one is fine enough.
  induction count generalizing exponent with
  | zero =>
    rw [Nat.cast_zero, sub_zero] at fine
    obtain ⟨decimal, found⟩ := Option.isSome_iff_exists.mp (Interval.onGrid_of_fine positive fine)
    rw [Interval.search, found]
    exact Interval.contains_onGrid found
  | succ count ih =>
    rw [Interval.search]
    cases found : (Interval.ofBinary number).onGrid? exponent with
    | some decimal => exact Interval.contains_onGrid found
    | none =>
      apply ih
      have next : exponent - 1 - (count : Int) = exponent - (count + 1 : Nat) := by omega
      rwa [next]

/-- The estimate of the leading decimal digit is at most one too large. -/
theorem estimate_le (exponent : Nat) (small : exponent < 2098) :
    (Ratio.ofScaled 1 10 (Int.fdiv (((exponent : Int) - 1074) * 30103) 100000 - 1)).le
      (Ratio.ofScaled 1 2 ((exponent : Int) - 1074)) = true := by
  -- The exponents of all doubles are checked one by one.
  have checked : ∀ exponent : Nat, exponent < 2098 →
      (Ratio.ofScaled 1 10 (Int.fdiv (((exponent : Int) - 1074) * 30103) 100000 - 1)).le
        (Ratio.ofScaled 1 2 ((exponent : Int) - 1074)) = true := by
    decide +kernel
  exact checked exponent small

/-- The estimate of the leading decimal digit of a double is at most one too large. -/
theorem estimate_le_value (canonical : number.Canonical) :
    (10 : ℚ) ^ (Int.fdiv ((Nat.log2 number.mantissa + number.exponent) * 30103) 100000 - 1) ≤
      number.value := by
  obtain ⟨positive, fits, least, greatest, leads⟩ := canonical
  have most := (Nat.log2_lt (n := number.mantissa) (k := 53) (by omega)).mpr fits
  have power : (2 : ℚ) ^ number.mantissa.log2 ≤ number.mantissa := by
    exact_mod_cast Nat.log2_self_le (by omega)
  -- The estimate depends on the leading bit alone.
  have shifted : (((Nat.log2 number.mantissa + number.exponent) + 1074).toNat : Int) - 1074 =
      Nat.log2 number.mantissa + number.exponent := by omega
  have checked := estimate_le ((Nat.log2 number.mantissa + number.exponent) + 1074).toNat (by omega)
  rw [shifted, Ratio.le_iff (Ratio.ofScaled_positive _ (by decide) _)
    (Ratio.ofScaled_positive _ (by decide) _), Ratio.value_ofScaled _ (by decide),
    Ratio.value_ofScaled _ (by decide)] at checked
  push_cast at checked
  rw [one_mul, one_mul, zpow_add₀ (by norm_num), zpow_natCast] at checked
  refine checked.trans ?_
  unfold Binary.value
  gcongr

/-- The leading decimal digit is not looked for above the magnitude. -/
theorem leadingExponent_le (canonical : number.Canonical) :
    (10 : ℚ) ^ number.leadingExponent ≤ number.value := by
  have reached : ∀ exponent, (Ratio.ofScaled 1 10 exponent).le
      (Ratio.ofScaled number.mantissa 2 number.exponent) = true →
        (10 : ℚ) ^ exponent ≤ number.value := by
    intro exponent reaches
    rw [Ratio.le_iff (Ratio.ofScaled_positive _ (by decide) _)
      (Ratio.ofScaled_positive _ (by decide) _), Ratio.value_ofScaled _ (by decide),
      Ratio.value_ofScaled _ (by decide), Nat.cast_one, one_mul] at reaches
    exact reaches
  unfold Binary.leadingExponent
  dsimp only
  -- The estimate is corrected upwards as long as the magnitude is reached.
  split
  case isTrue reaches => exact reached _ reaches
  case isFalse =>
    split
    case isTrue reaches => exact reached _ reaches
    case isFalse => exact estimate_le_value canonical

/-- The shortest decimal of a double lies near it. -/
theorem near_shortest (canonical : number.Canonical) : number.Near (shortest number).value := by
  rw [← Interval.contains_iff canonical.positive]
  apply Interval.contains_search canonical.positive
  -- Seventeen digits are finer than the places of the mantissa.
  have unit : (0 : ℚ) < 2 ^ number.exponent := by positivity
  have most : (number.mantissa : ℚ) < 2 ^ 53 := by exact_mod_cast canonical.fits
  have reached := leadingExponent_le canonical
  calc (10 : ℚ) ^ (number.leadingExponent + 1 - (18 : Nat))
      = 10 ^ number.leadingExponent / 10 ^ 17 := by
        rw [← zpow_natCast, ← zpow_sub₀ (by norm_num)]
        congr 1
        omega
    _ ≤ number.value / 10 ^ 17 := by gcongr
    _ < 2 ^ 53 * 2 ^ number.exponent / 10 ^ 17 := by
        unfold Binary.value
        gcongr
    _ ≤ 3 / 4 * 2 ^ number.exponent := by
        rw [mul_div_right_comm]
        apply mul_le_mul_of_nonneg_right _ unit.le
        norm_num

end ScriptEngine.Number

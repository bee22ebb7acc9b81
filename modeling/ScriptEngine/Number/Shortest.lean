import ScriptEngine.Number.Binary

/-! The shortest decimal that reads back as a given double. -/

namespace ScriptEngine.Number

/-- The decimal `digits * 10 ^ exponent`. -/
structure Decimal where
  digits : Nat
  exponent : Int
  deriving DecidableEq, Repr

/-- A ratio of natural numbers. -/
structure Ratio where
  numerator : Nat
  denominator : Nat

/-- The number `digits * base ^ exponent` as a ratio. -/
def Ratio.ofScaled (digits base : Nat) (exponent : Int) : Ratio :=
  ⟨digits * Nat.pow base exponent.toNat, Nat.pow base (-exponent).toNat⟩

/-- The order of two ratios with positive denominators. -/
def Ratio.le (a b : Ratio) : Bool := a.numerator * b.denominator ≤ b.numerator * a.denominator

/-- The strict order of two ratios with positive denominators. -/
def Ratio.lt (a b : Ratio) : Bool := a.numerator * b.denominator < b.numerator * a.denominator

/-- The reals that round to a double, with its magnitude. -/
structure Interval where
  low : Ratio
  value : Ratio
  high : Ratio
  /-- Whether the ends belong to it. -/
  closed : Bool

/-- The interval of a positive double. -/
def Interval.ofBinary (number : Binary) : Interval :=
  -- Four times the mantissa keeps both half distances whole.
  let point := fun quarters => Ratio.ofScaled quarters 2 (number.exponent - 2)
  let center := 4 * number.mantissa
  -- At a power of two the lower neighbour is only half as far away.
  let below := if number.mantissa = leadingBit then 1 else 2
  ⟨point (center - below), point center, point (center + 2), number.mantissa % 2 == 0⟩

/-- Whether a decimal rounds to the double of an interval. -/
def Interval.contains (interval : Interval) (decimal : Decimal) : Bool :=
  let point := Ratio.ofScaled decimal.digits 10 decimal.exponent
  if interval.closed then interval.low.le point && point.le interval.high
  else interval.low.lt point && point.lt interval.high

/-- The exponent of the leading decimal digit of a positive magnitude. -/
def Binary.leadingExponent (number : Binary) : Int :=
  let value := Ratio.ofScaled number.mantissa 2 number.exponent
  let reaches := fun exponent => (Ratio.ofScaled 1 10 exponent).le value
  -- One binary digit is worth about 0.30103 decimal ones, so that the estimate is off by one at most.
  let estimate := Int.fdiv ((Nat.log2 number.mantissa + number.exponent) * 30103) 100000
  if reaches (estimate + 1) then estimate + 1
  else if reaches estimate then estimate
  else estimate - 1

/-- The multiple of `10 ^ exponent` nearest to the double among those that read back as it; of two
that are equally near, the larger. -/
def Interval.onGrid? (interval : Interval) (exponent : Int) : Option Decimal :=
  let unit := Ratio.ofScaled 1 10 exponent
  let scaled : Ratio :=
    ⟨interval.value.numerator * unit.denominator, interval.value.denominator * unit.numerator⟩
  let floor := scaled.numerator / scaled.denominator
  let lower : Decimal := ⟨floor, exponent⟩
  let upper : Decimal := ⟨floor + 1, exponent⟩
  -- The part above the lower multiple decides which of the two is nearer.
  let upward := scaled.denominator ≤ 2 * (scaled.numerator % scaled.denominator)
  match interval.contains lower, interval.contains upper with
  | true, true => some (if upward then upper else lower)
  | true, false => some lower
  | false, true => some upper
  | false, false => none

/-- The first of the next `count` grids, from coarse to fine, that holds a decimal for the double. -/
def Interval.search (interval : Interval) (exponent : Int) : Nat → Decimal
  | 0 => (interval.onGrid? exponent).getD ⟨0, 0⟩
  | count + 1 => (interval.onGrid? exponent).getD (interval.search (exponent - 1) count)

/-- The decimal with the fewest digits that reads back as a positive double, and of those the
nearest. Seventeen digits always suffice. -/
def shortest (number : Binary) : Decimal :=
  (Interval.ofBinary number).search (number.leadingExponent + 1) 18

end ScriptEngine.Number

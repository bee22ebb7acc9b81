/-! Finite doubles as integers times powers of two, and the remainder of their division. -/

namespace ScriptEngine.Number

/-- A magnitude `mantissa * 2 ^ exponent`. -/
structure Binary where
  mantissa : Nat
  exponent : Int
  deriving DecidableEq, Repr

/-- The leading bit of a mantissa, which the bits of a double leave out. -/
def leadingBit : Nat := 1 <<< 52

/-- The magnitude of a finite double as its bits give it. -/
def Binary.ofFloat (x : Float) : Binary :=
  let bits := x.toBits.toNat
  let field : Nat := bits / leadingBit % 2048
  let fraction : Nat := bits % leadingBit
  -- Subnormal numbers share the smallest exponent and lack the leading bit.
  if field = 0 then ⟨fraction, -1074⟩ else ⟨fraction + leadingBit, (field : Int) - 1075⟩

/-- Whether a double carries the sign bit. -/
def isNegative (x : Float) : Bool := x.toBits.toNat >>> 63 == 1

/-- The remainder of a division that rounds toward zero; it has the sign of the dividend. -/
def remainder (x y : Float) : Float :=
  if x.isNaN || y.isNaN || x.isInf || y == 0 then 0 / 0
  else if y.isInf then x
  else
    let dividend := Binary.ofFloat x
    let divisor := Binary.ofFloat y
    let exponent := min dividend.exponent divisor.exponent
    let scaled := fun (number : Binary) =>
      number.mantissa <<< (number.exponent - exponent).toNat
    let magnitude := (Float.ofNat (scaled dividend % scaled divisor)).scaleB exponent
    if isNegative x then -magnitude else magnitude

/-- Whether a double is a whole number. -/
def isWhole (x : Float) : Bool :=
  let number := Binary.ofFloat x
  x.isFinite
    && (0 ≤ number.exponent || number.mantissa % (1 <<< (-number.exponent).toNat) == 0)

/-- The magnitude of a finite double without its fraction. -/
def Binary.whole (number : Binary) : Nat :=
  if 0 ≤ number.exponent then number.mantissa <<< number.exponent.toNat
  else number.mantissa >>> (-number.exponent).toNat

/-- The integer nearest to zero's side of a double, within 64 bits. What is no number becomes zero;
the bits of an infinity are those of a magnitude beyond all bounds. -/
def toInteger (x : Float) : Int :=
  let magnitude : Int := (Binary.ofFloat x).whole
  if x.isNaN then 0
  else if isNegative x then max (-magnitude) (-0x8000000000000000)
  else min magnitude 0x7FFFFFFFFFFFFFFF

end ScriptEngine.Number

import ScriptEngine.Number.Shortest
import ScriptEngine.Text.Blank

/-! The text of numbers: how a number is shown and which texts denote one. -/

namespace ScriptEngine.Number

/-- A decimal in positional notation, without an exponent. -/
def Decimal.positional (decimal : Decimal) : String :=
  let digits := Nat.toDigits 10 decimal.digits
  if 0 ≤ decimal.exponent then
    String.ofList (digits ++ List.replicate decimal.exponent.toNat '0')
  else
    let places := (-decimal.exponent).toNat
    -- At least one digit stands in front of the point.
    let padded := List.replicate (places + 1 - digits.length) '0' ++ digits
    let whole := padded.length - places
    String.ofList (padded.take whole ++ '.' :: padded.drop whole)

/-- A decimal without trailing zeros in its digits; `fuel` bounds their number. -/
def Decimal.stripZeros (decimal : Decimal) : Nat → Decimal
  | 0 => decimal
  | fuel + 1 =>
    if decimal.digits % 10 = 0 ∧ decimal.digits ≠ 0 then
      stripZeros ⟨decimal.digits / 10, decimal.exponent + 1⟩ fuel
    else decimal

/-- Shows a number: whole numbers below 10^15 as integers, so that zero has no sign, and all other
numbers with the fewest digits that read back. -/
def format (x : Float) : String :=
  if x.isNaN then "NaN"
  else if x.isInf then (if x < 0 then "-inf" else "inf")
  else if isWhole x && x.abs < 1e15 then toString (toInteger x)
  else
    let magnitude := ((shortest (Binary.ofFloat x)).stripZeros 20).positional
    if x < 0 then "-" ++ magnitude else magnitude

/-- The value of a digit sequence read after `value`. -/
def digitsValue (value : Nat) (digits : List Char) : Nat :=
  digits.foldl (fun total digit => total * 10 + (digit.toNat - '0'.toNat)) value

/-- The double nearest to `digits * 10 ^ exponent`. -/
def ofDecimal (decimal : Decimal) : Float :=
  let size := (Nat.toDigits 10 decimal.digits).length + decimal.exponent
  if decimal.digits = 0 then 0
  -- Beyond these sizes every decimal is infinite or zero, whatever its digits.
  else if 310 < size then 1 / 0
  else if size < -330 then 0
  else Float.ofScientific decimal.digits (decimal.exponent < 0) decimal.exponent.natAbs

/-- The value of an optional exponent part, which must be the whole text. -/
def exponent? : List Char → Option Int
  | [] => some 0
  | mark :: rest =>
    if mark = 'e' ∨ mark = 'E' then
      let (negative, digits) := match rest with
        | '-' :: digits => (true, digits)
        | '+' :: digits => (false, digits)
        | digits => (false, digits)
      if digits.isEmpty || !digits.all Char.isDigit then none
      else
        let value : Int := digitsValue 0 digits
        some (if negative then -value else value)
    else none

/-- The decimal that an unsigned text denotes: digits with an optional point, and at least one
digit on some side of it, before an optional exponent. -/
def decimal? (text : List Char) : Option Decimal :=
  let whole := text.takeWhile Char.isDigit
  let behind := text.dropWhile Char.isDigit
  let (fraction, tail) := match behind with
    | '.' :: rest => (rest.takeWhile Char.isDigit, rest.dropWhile Char.isDigit)
    | _ => ([], behind)
  if whole.isEmpty && fraction.isEmpty then none
  else (exponent? tail).map fun exponent =>
    ⟨digitsValue 0 (whole ++ fraction), exponent - fraction.length⟩

/-- The magnitude that an unsigned text denotes: a decimal, or a word for infinity or no number. -/
def magnitude? (text : List Char) : Option Float :=
  let word := String.ofList (text.map Char.toLower)
  if word = "inf" ∨ word = "infinity" then some (1 / 0)
  else if word = "nan" then some (0 / 0)
  else (decimal? text).map ofDecimal

/-- The number that a text denotes as a whole, with an optional sign. -/
def parse? : List Char → Option Float
  | '-' :: text => (magnitude? text).map (- ·)
  | '+' :: text => magnitude? text
  | text => magnitude? text

/-- The finite number that a script string denotes, blanks around it aside; words denote none. -/
def ofString? (text : String) : Option Float :=
  let trimmed := Text.trim text.toList
  match trimmed with
  | [] => none
  | first :: _ =>
    if first.isDigit || first == '-' || first == '+' || first == '.' then
      (parse? trimmed).filter (·.isFinite)
    else none

/-- The number of leading characters that form a number literal: digits, a fraction, an exponent. -/
def literalLength (text : List Char) : Nat :=
  let digits := fun (rest : List Char) => (rest.takeWhile Char.isDigit).length
  let startsDigit := fun (rest : List Char) => (rest.head?.map Char.isDigit).getD false
  let whole := digits text
  let fraction := match text.drop whole with
    | '.' :: rest => if startsDigit rest then 1 + digits rest else 0
    | _ => 0
  let exponent := match text.drop (whole + fraction) with
    | mark :: rest =>
      if mark = 'e' ∨ mark = 'E' then
        let sign := match rest with
          | '+' :: _ => 1
          | '-' :: _ => 1
          | _ => 0
        if startsDigit (rest.drop sign) then 1 + sign + digits (rest.drop sign) else 0
      else 0
    | [] => 0
  whole + fraction + exponent

end ScriptEngine.Number

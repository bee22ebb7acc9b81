import ScriptEngine.Text.Blank

/-! Dates with times of day in the proleptic Gregorian calendar, and their text. -/

namespace ScriptEngine

/-- A moment without a time zone. During a leap second the nanoseconds run on from 10^9. -/
structure DateTime where
  year : Int
  month : Nat
  day : Nat
  hour : Nat
  minute : Nat
  second : Nat
  nanosecond : Nat
  deriving DecidableEq, Repr

namespace DateTime

/-- Whether a year has a leap day. -/
def isLeapYear (year : Int) : Bool := year % 4 == 0 && (year % 100 != 0 || year % 400 == 0)

/-- The number of days of a month, and 0 for what is no month. -/
def daysIn (year : Int) : Nat → Nat
  | 2 => if isLeapYear year then 29 else 28
  | month =>
    if [4, 6, 9, 11].contains month then 30 else if 1 ≤ month ∧ month ≤ 12 then 31 else 0

/-- The years that can be represented. -/
def isSupportedYear (year : Int) : Bool := -262143 ≤ year && year ≤ 262142

/-- The order in time. -/
def compare (a b : DateTime) : Ordering :=
  (Ord.compare a.year b.year).then <|
  (Ord.compare a.month b.month).then <|
  (Ord.compare a.day b.day).then <|
  (Ord.compare a.hour b.hour).then <|
  (Ord.compare a.minute b.minute).then <|
  (Ord.compare a.second b.second).then <|
  Ord.compare a.nanosecond b.nanosecond

/-- A number with zeros in front, up to `width` digits. -/
def padded (width number : Nat) : String :=
  let digits := Nat.toDigits 10 number
  String.ofList (List.replicate (width - digits.length) '0' ++ digits)

/-- A year as four digits; years outside that range carry their sign. -/
def yearText (year : Int) : String :=
  if year < 0 then "-" ++ padded 4 year.natAbs
  else if year ≤ 9999 then padded 4 year.natAbs
  else "+" ++ padded 4 year.natAbs

/-- A fraction of a second with as few of 0, 3, 6 or 9 digits as show it in full. -/
def fractionText (nanosecond : Nat) : String :=
  if nanosecond = 0 then ""
  else if nanosecond % 1000000 = 0 then "." ++ padded 3 (nanosecond / 1000000)
  else if nanosecond % 1000 = 0 then "." ++ padded 6 (nanosecond / 1000)
  else "." ++ padded 9 nanosecond

/-- The text `YYYY-MM-DD HH:MM:SS` with a fraction if there is one. -/
def format (moment : DateTime) : String :=
  let shownSecond := moment.second + moment.nanosecond / 1000000000
  yearText moment.year ++ "-" ++ padded 2 moment.month ++ "-" ++ padded 2 moment.day ++ " "
    ++ padded 2 moment.hour ++ ":" ++ padded 2 moment.minute ++ ":" ++ padded 2 shownSecond
    ++ fractionText (moment.nanosecond % 1000000000)

/-- Reads at least one and at most `width` digits. -/
def digits? (width : Nat) (text : List Char) : Option (Nat × List Char) :=
  let digits := (text.take width).takeWhile Char.isDigit
  if digits.isEmpty then none
  else some (digits.foldl (fun total digit => total * 10 + (digit.toNat - '0'.toNat)) 0,
    text.drop digits.length)

/-- Reads a field of at most two digits behind any blanks. -/
def field? (text : List Char) : Option (Nat × List Char) := digits? 2 (Text.trimStart text)

/-- Reads a year of at most four digits, or of any number of digits behind a sign. -/
def year? (text : List Char) : Option (Int × List Char) :=
  match Text.trimStart text with
  | '-' :: rest => (digits? rest.length rest).map fun (year, behind) => (-(year : Int), behind)
  | '+' :: rest => (digits? rest.length rest).map fun (year, behind) => ((year : Int), behind)
  | text => (digits? 4 text).map fun (year, behind) => ((year : Int), behind)

/-- Passes one character. -/
def char? (wanted : Char) : List Char → Option (List Char)
  | [] => none
  | c :: rest => if c = wanted then some rest else none

/-- Reads an optional fraction as nanoseconds; digits beyond the ninth are dropped. -/
def fraction? : List Char → Option (Nat × List Char)
  | '.' :: rest => do
    let (value, behind) ← digits? 9 rest
    let used := rest.length - behind.length
    return (value * Nat.pow 10 (9 - used), behind.dropWhile Char.isDigit)
  | text => some (0, text)

/-- Reads a whole text in the format of `format`. Blanks may stand in front of each number, the
one between date and time may be missing, and second 60 is a leap second. -/
def parse? (text : List Char) : Option DateTime := do
  let (year, rest) ← year? text
  let (month, rest) ← field? (← char? '-' rest)
  let (day, rest) ← field? (← char? '-' rest)
  let (hour, rest) ← field? rest
  let (minute, rest) ← field? (← char? ':' rest)
  let (second, rest) ← field? (← char? ':' rest)
  let (nanosecond, rest) ← fraction? rest
  if rest.isEmpty && isSupportedYear year && 1 ≤ day && day ≤ daysIn year month && hour < 24
      && minute < 60 && second ≤ 60 then
    return if second = 60 then ⟨year, month, day, hour, minute, 59, nanosecond + 1000000000⟩
      else ⟨year, month, day, hour, minute, second, nanosecond⟩
  else none

end DateTime

end ScriptEngine

/-! The reader of JSON text. -/

namespace ScriptEngine

/-- A JSON document. -/
inductive Json where
  | null
  | bool (holds : Bool)
  /-- An integer without a sign, a fraction or an exponent. -/
  | natural (number : Nat)
  /-- Any other number. -/
  | otherNumber
  /-- A string, unless its escapes name half of a surrogate pair. -/
  | string (text : Option String)
  | array (items : List Json)
  | object (members : List (Option String × Json))

namespace Json

/-- Whether a character is white space between tokens. -/
def isSpace (c : Char) : Bool := c == ' ' || c == '\n' || c == '\t' || c == '\r'

/-- Skips white space. -/
def skipSpace (text : List Char) : List Char := text.dropWhile isSpace

/-- The value of a hexadecimal digit in either case. -/
def hexValue? (c : Char) : Option Nat :=
  if c.isDigit then some (c.toNat - '0'.toNat)
  else if 'a' ≤ c ∧ c ≤ 'f' then some (c.toNat - 'a'.toNat + 10)
  else if 'A' ≤ c ∧ c ≤ 'F' then some (c.toNat - 'A'.toNat + 10)
  else none

/-- Reads the four digits of a code unit. -/
def codeUnit? : List Char → Option (Nat × List Char)
  | a :: b :: c :: d :: rest => do
    let value := fun high low => 16 * high + low
    let unit := value (value (value (← hexValue? a) (← hexValue? b)) (← hexValue? c)) (← hexValue? d)
    return (unit, rest)
  | _ => none

/-- The character behind a backslash that stands for itself or for a control character. -/
def simpleEscape? : Char → Option Char
  | '"' => some '"'
  | '\\' => some '\\'
  | '/' => some '/'
  | 'b' => some '\x08'
  | 'f' => some '\x0c'
  | 'n' => some '\n'
  | 'r' => some '\r'
  | 't' => some '\t'
  | _ => none

/-- Reads the inside of a string as UTF-16 code units for what is escaped by number, and as
characters for the rest; `fuel` bounds the characters. -/
def units? : Nat → List Char → Option (List (Nat ⊕ Char) × List Char)
  | 0, _ => none
  | _, [] => none
  | _, '"' :: rest => some ([], rest)
  | fuel + 1, '\\' :: 'u' :: rest => do
    let (unit, rest) ← codeUnit? rest
    let (units, behind) ← units? fuel rest
    return (.inl unit :: units, behind)
  | fuel + 1, '\\' :: escaped :: rest => do
    let c ← simpleEscape? escaped
    let (units, behind) ← units? fuel rest
    return (.inr c :: units, behind)
  | fuel + 1, c :: rest =>
    if c.toNat < 32 ∨ c = '\\' then none
    else (units? fuel rest).map fun (units, behind) => (.inr c :: units, behind)

/-- The characters of code units, unless half of a surrogate pair stands alone. -/
def characters? : List (Nat ⊕ Char) → Option (List Char)
  | [] => some []
  | .inr c :: rest => (characters? rest).map (c :: ·)
  | .inl high :: .inl low :: rest =>
    if 0xD800 ≤ high ∧ high < 0xDC00 ∧ 0xDC00 ≤ low ∧ low < 0xE000 then
      let code := 0x10000 + (high - 0xD800) * 0x400 + (low - 0xDC00)
      (characters? rest).map (Char.ofNat code :: ·)
    else if 0xD800 ≤ high ∧ high < 0xE000 then none
    else (characters? (.inl low :: rest)).map (Char.ofNat high :: ·)
  | .inl unit :: rest =>
    if 0xD800 ≤ unit ∧ unit < 0xE000 then none
    else (characters? rest).map (Char.ofNat unit :: ·)

/-- Reads a string behind its opening quote. -/
def stringBody? (text : List Char) : Option (Option String × List Char) :=
  (units? (text.length + 1) text).map fun (units, rest) =>
    ((characters? units).map String.ofList, rest)

/-- Reads at least one digit. -/
def digits? (text : List Char) : Option (List Char × List Char) :=
  let digits := text.takeWhile Char.isDigit
  if digits.isEmpty then none else some (digits, text.drop digits.length)

/-- Reads a number. -/
def number? (text : List Char) : Option (Json × List Char) := do
  let (negative, unsigned) := match text with
    | '-' :: rest => (true, rest)
    | _ => (false, text)
  let (whole, rest) ← digits? unsigned
  -- A leading zero stands alone.
  if whole.head? = some '0' ∧ whole.length ≠ 1 then none
  let (fractional, rest) ← match rest with
    | '.' :: digits => do
      let (_, rest) ← digits? digits
      pure (true, rest)
    | _ => pure (false, rest)
  let (scaled, rest) ← match rest with
    | mark :: digits =>
      if mark = 'e' ∨ mark = 'E' then do
        let unsigned := match digits with
          | '+' :: rest => rest
          | '-' :: rest => rest
          | _ => digits
        let (_, rest) ← digits? unsigned
        pure (true, rest)
      else pure (false, rest)
    | [] => pure (false, rest)
  let value := whole.foldl (fun total digit => total * 10 + (digit.toNat - '0'.toNat)) 0
  return (if negative || fractional || scaled then .otherNumber else .natural value, rest)

/-- Passes a word. -/
def word? (word : String) (text : List Char) : Option (List Char) :=
  if word.toList.isPrefixOf text then some (text.drop word.length) else none

mutual

/-- Reads a document behind white space; `fuel` bounds the tokens. -/
def document? : Nat → List Char → Option (Json × List Char)
  | 0, _ => none
  | fuel + 1, text =>
    match skipSpace text with
    | 'n' :: rest => (word? "ull" rest).map (.null, ·)
    | 't' :: rest => (word? "rue" rest).map (.bool true, ·)
    | 'f' :: rest => (word? "alse" rest).map (.bool false, ·)
    | '"' :: rest => (stringBody? rest).map fun (text, rest) => (.string text, rest)
    | '[' :: rest =>
      match skipSpace rest with
      | ']' :: rest => some (.array [], rest)
      | rest => do
        let (items, rest) ← items? fuel rest
        return (.array items, rest)
    | '{' :: rest =>
      match skipSpace rest with
      | '}' :: rest => some (.object [], rest)
      | rest => do
        let (members, rest) ← members? fuel rest
        return (.object members, rest)
    | rest => number? rest

/-- Reads one or more items and the bracket behind them. -/
def items? : Nat → List Char → Option (List Json × List Char)
  | 0, _ => none
  | fuel + 1, text => do
    let (first, rest) ← document? fuel text
    match skipSpace rest with
    | ',' :: rest => do
      let (others, rest) ← items? fuel rest
      return (first :: others, rest)
    | ']' :: rest => some ([first], rest)
    | _ => none

/-- Reads one or more members and the brace behind them. -/
def members? : Nat → List Char → Option (List (Option String × Json) × List Char)
  | 0, _ => none
  | fuel + 1, text =>
    match skipSpace text with
    | '"' :: rest => do
      let (name, rest) ← stringBody? rest
      match skipSpace rest with
      | ':' :: rest => do
        let (value, rest) ← document? fuel rest
        match skipSpace rest with
        | ',' :: rest => do
          let (others, rest) ← members? fuel rest
          return ((name, value) :: others, rest)
        | '}' :: rest => some ([(name, value)], rest)
        | _ => none
      | _ => none
    | _ => none

end

/-- The document that a whole text denotes. -/
def ofText? (text : String) : Option Json := do
  let (document, rest) ← document? (2 * text.length + 2) text.toList
  if (skipSpace rest).isEmpty then some document else none

end Json

end ScriptEngine

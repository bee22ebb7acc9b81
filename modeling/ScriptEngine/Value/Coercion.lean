import ScriptEngine.Value.Display

/-! Readings of values as numbers, truth values and positions, and their equality and order. -/

namespace ScriptEngine

mutual

/-- The number that a value denotes, if it denotes one. -/
def Value.number? : Value → Option Float
  | ⟨data, _, _⟩ => data.number?

/-- The number denoted by what a value is. -/
def Data.number? : Data → Option Float
  | .number number => some number
  | .string text => Number.ofString? text
  | .returnSignal returned => returned.number?
  | _ => none

end

mutual

/-- Whether a value counts as true: a number other than zero, or the word true in any case. -/
def Value.truthy : Value → Bool
  | ⟨data, _, _⟩ => data.truthy

/-- Whether what a value is counts as true. -/
def Data.truthy : Data → Bool
  | .number number => number != 0
  | .string text => text.toList.map Char.toLower == ['t', 'r', 'u', 'e']
  | .returnSignal returned => returned.truthy
  | _ => false

end

mutual

/-- Equality by type and content. Collections compare by their text, objects by identity. -/
def Value.equals : Value → Value → Bool
  | ⟨left, _, _⟩, right => left.equals right.data

/-- Equality of what two values are. -/
def Data.equals : Data → Data → Bool
  | .undefined, .undefined => true
  | .null, .null => true
  | .number left, .number right => left == right
  | .string left, .string right => left == right
  | .bytes left, .bytes right => left == right
  | .dateTime left, .dateTime right => left == right
  | .collection left, .collection right =>
    left.isMap == right.isMap
      && (Data.collection left).display == (Data.collection right).display
  | .enumeration left, .enumeration right =>
    -- The order of the entries does not matter.
    left.name == right.name && left.entries.size == right.entries.size
      && left.entries.entries.all fun (name, value) => right.valueOf? name == some value
  | .object left, .object right => left.target == right.target
  | .breakSignal, .breakSignal => true
  | .continueSignal, .continueSignal => true
  | .returnSignal left, .returnSignal right => left.equals right
  | .quitSignal left, .quitSignal right => left == right
  | _, _ => false

end

instance : BEq Value := ⟨Value.equals⟩

namespace Value

/-- The number that a value denotes, or zero. -/
def toNumber (value : Value) : Float := value.number?.getD 0

/-- A number cut to a natural number; what is below zero or no number becomes zero. -/
def truncated (number : Float) : Nat := number.toUInt64.toNat

/-- The non-negative whole position that a value denotes. -/
def toIndex (value : Value) : Result Nat :=
  match value.number? with
  | some number =>
    if 0 ≤ number && Number.isWhole number then .ok (truncated number)
    else fail (.typeMismatch .index value.typeName)
  | none => fail (.typeMismatch .index value.typeName)

/-- The integer nearest to zero's side of a number, within 64 bits. -/
def toInteger (number : Float) : Int := Number.toInteger number

/-- The order of two numbers; no number is neither before nor behind any other. -/
def compareNumbers (left right : Float) : Ordering :=
  if left < right then .lt else if right < left then .gt else .eq

/-- The order behind comparisons and sorting: numbers and moments by size, all else by text. -/
def compare (left right : Value) : Ordering :=
  match left.data, right.data with
  | .number left, .number right => compareNumbers left right
  | .dateTime left, .dateTime right => left.compare right
  | _, _ => Ord.compare left.display right.display

/-- Puts a value behind all that are not greater; `sorted` is in descending order. -/
def insertSorted (value : Value) : List Value → List Value
  | [] => [value]
  | greatest :: rest =>
    if value.compare greatest = .lt then greatest :: insertSorted value rest
    else value :: greatest :: rest

/-- The values in ascending order; values that compare equal keep their order. -/
def sort (values : List Value) : List Value :=
  (values.foldl (fun sorted value => insertSorted value sorted) []).reverse

end Value

end ScriptEngine

import ScriptEngine.Number.Text
import ScriptEngine.Text.Quoted
import ScriptEngine.Value.Basic

/-! The text of values. -/

namespace ScriptEngine

/-- Bytes as pairs of lower-case hexadecimal digits. -/
def hexText (bytes : List UInt8) : String :=
  String.ofList (bytes.flatMap fun byte =>
    [Nat.digitChar (byte.toNat / 16), Nat.digitChar (byte.toNat % 16)])

/-- Texts between two delimiters, with commas between them. -/
def listText (opener closer : String) (parts : List String) : String :=
  opener ++ String.intercalate ", " parts ++ closer

mutual

/-- The text of a value, which is also its coercion to a string. -/
def Value.display : Value → String
  | ⟨data, _, _⟩ => data.display

/-- The text of what a value is. -/
def Data.display : Data → String
  | .undefined => "undefined"
  | .null => "null"
  | .number number => Number.format number
  | .string text => text
  | .bytes bytes => hexText bytes
  | .dateTime moment => moment.format
  | .collection ⟨items, index⟩ =>
    let shown := displayAll items
    match index with
    -- A map shows its keyed elements only.
    | some keys => listText "\x7b" "\x7d" <| keys.map fun (key, position) =>
        key ++ ": " ++ shown[position]?.getD "undefined"
    | none => listText "[" "]" shown
  | .enumeration enumeration =>
    enumeration.name ++ listText "\x7b" "\x7d" (enumeration.entries.entries.map fun (name, value) =>
      name ++ ": " ++ toString value)
  | .object handle => "<" ++ handle.typeTag ++ ">"
  | .breakSignal => "break"
  | .continueSignal => "continue"
  | .returnSignal returned => returned.display
  | .quitSignal code => "quit(" ++ toString code ++ ")"

/-- The texts of elements inside a collection, where strings are quoted. -/
def displayAll : List Value → List String
  | [] => []
  | value :: rest =>
    (match value.data with
      | .string text => Text.quoted text
      | _ => value.display) :: displayAll rest

end

/-- The mark behind a value that has ad-hoc fields. -/
def fieldMark (names : List String) : String :=
  if names.isEmpty then "" else " +" ++ listText "[" "]" (names.map Text.quoted)

mutual

/-- The text of a value for inspection, which tells strings and bytes apart and names the fields. -/
def Value.inspect : Value → String
  | ⟨data, fields, _⟩ => data.inspect ++ fieldMark fields.names

/-- The text for inspection of what a value is. -/
def Data.inspect : Data → String
  | .string text => Text.quoted text
  | .bytes bytes => "b" ++ listText "[" "]" (bytes.map (toString ·.toNat))
  | .returnSignal returned => "return " ++ returned.inspect
  | data => data.display

end

end ScriptEngine

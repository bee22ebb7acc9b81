import ScriptEngine.Value.Display

/-! Tagged text, the self-describing written form of values. Every element is written as
`<name:TAG:payload>`, where a backslash stands in front of each delimiter inside names and text. -/

namespace ScriptEngine.Tagged

/-- Whether a character must be escaped in names and text. -/
def isDelimiter (c : Char) : Bool := c == '<' || c == '>' || c == ':' || c == '\\'

/-- Text with its delimiters escaped. -/
def escape (text : List Char) : List Char :=
  text.flatMap fun c => if isDelimiter c then ['\\', c] else [c]

/-- The written name of an element. The empty key is written as a sequence that escaping never
produces, so that it differs from no key. -/
def nameText : Option String → List Char
  | none => []
  | some name => if name.isEmpty then ['\\', '0'] else escape name.toList

/-- An element from its name, its tag and its written payload. -/
def element (name : Option String) (tag : String) (payload : List Char) : List Char :=
  '<' :: nameText name ++ ':' :: tag.toList ++ ':' :: payload ++ ['>']

/-- The name under which the element at each position is written. -/
def itemName (index : Option (List (String × Nat))) (position : Nat) : Option String :=
  (index.getD []).find? (fun (_, recorded) => recorded == position) |>.map (·.1)

mutual

/-- Writes a value as an element; `objectBody` writes the fields of a scripted object, and yields
nothing if that has no end. -/
def write (objectBody : Nat → Option (List Char)) (name : Option String) :
    Value → Option (List Char)
  | ⟨data, _, _⟩ => writeData objectBody name data

/-- Writes what a value is as an element. -/
def writeData (objectBody : Nat → Option (List Char)) (name : Option String) :
    Data → Option (List Char)
  | .returnSignal returned => write objectBody name returned
  | .number number => some (element name "NUM" (escape (Number.format number).toList))
  | .string text => some (element name "STR" (escape text.toList))
  | .bytes bytes => some (element name "BYT" (hexText bytes).toList)
  | .dateTime moment => some (element name "DAT" (escape moment.format.toList))
  | .collection ⟨items, index⟩ =>
    (writeItems objectBody index 0 items).map
      (element name (if index.isSome then "MAP" else "ARR"))
  | .enumeration enumeration =>
    let entries := enumeration.entries.entries.flatMap fun (entry, value) =>
      element (some entry) "NUM" (escape (Number.format (Float.ofInt value)).toList)
    some (element name "ENU" (escape enumeration.name.toList ++ entries))
  | .object ⟨typeTag, .scripted id⟩ =>
    (objectBody id).map fun body => element name "OBJ" (escape typeTag.toList ++ body)
  | .object ⟨typeTag, .foreign _⟩ => some (element name "OBJ" (escape typeTag.toList))
  | _ => some (element name "NON" [])

/-- Writes the elements of a collection from `position` on, each named by its key. -/
def writeItems (objectBody : Nat → Option (List Char)) (index : Option (List (String × Nat)))
    (position : Nat) : List Value → Option (List Char)
  | [] => some []
  | item :: rest => do
    let first ← write objectBody (itemName index position) item
    return first ++ (← writeItems objectBody index (position + 1) rest)

end

/-- Writes the fields of a scripted object, following at most `hops` objects in a row. -/
def writeFields (fieldsOf : Nat → List (String × Value)) : Nat → Nat → Option (List Char)
  | 0, _ => none
  | hops + 1, id =>
    (fieldsOf id).foldlM (fun body (name, value) => do
      return body ++ (← write (writeFields fieldsOf hops) (some name) value)) []

/-- The tagged text of a value. `fieldsOf` gives the fields of each of `objects` scripted objects;
only objects that refer back to themselves have no text. -/
def ofValue? (fieldsOf : Nat → List (String × Value)) (objects : Nat) (value : Value) :
    Option String :=
  (write (writeFields fieldsOf objects) none value).map String.ofList

end ScriptEngine.Tagged

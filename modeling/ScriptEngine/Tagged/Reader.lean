import ScriptEngine.Value.Coercion
import ScriptEngine.Tagged.Writer

/-! Reading values back from tagged text. -/

namespace ScriptEngine.Tagged

/-- A place in tagged text. The offset may lie behind the end, where nothing follows. -/
structure Place where
  offset : Nat
  rest : List Char

/-- What reading tagged text yields; a fault comes with its offset. -/
abbrev Step (α : Type) := Except (Nat × TaggedFault) α

/-- Stops at a place with a fault. -/
def Place.refuse {α : Type} (place : Place) (fault : TaggedFault) : Step α :=
  .error (place.offset, fault)

/-- Passes `count` characters, whether or not they are there. -/
def Place.skip (place : Place) (count : Nat) : Place :=
  ⟨place.offset + count, place.rest.drop count⟩

/-- Passes the character `wanted`. -/
def Place.expect (place : Place) (wanted : Char) : Step Place :=
  if place.rest.head? = some wanted then .ok (place.skip 1)
  else place.refuse (.expected wanted)

/-- Reads text from `offset` on up to one of `stops` that is not escaped. -/
def textFrom (stops : List Char) (offset : Nat) : List Char → Step (List Char × Place)
  | [] => .error (offset, .unterminatedElement)
  | '\\' :: [] => .error (offset, .danglingEscape)
  | '\\' :: escaped :: rest => do
    let (text, behind) ← textFrom stops (offset + 2) rest
    return (escaped :: text, behind)
  | c :: rest =>
    if stops.contains c then .ok ([], ⟨offset, c :: rest⟩)
    else do
      let (text, behind) ← textFrom stops (offset + 1) rest
      return (c :: text, behind)

/-- Reads text up to one of `stops`. -/
def Place.text (place : Place) (stops : List Char) : Step (String × Place) := do
  let (text, behind) ← textFrom stops place.offset place.rest
  return (String.ofList text, behind)

/-- The value of a hexadecimal digit in either case. -/
def hexDigit? (c : Char) : Option Nat :=
  if '0' ≤ c ∧ c ≤ '9' then some (c.toNat - '0'.toNat)
  else if 'a' ≤ c ∧ c ≤ 'f' then some (c.toNat - 'a'.toNat + 10)
  else if 'A' ≤ c ∧ c ≤ 'F' then some (c.toNat - 'A'.toNat + 10)
  else none

/-- The bytes of a list of hexadecimal digits in pairs. -/
def pairUp : List Nat → List UInt8
  | high :: low :: rest => UInt8.ofNat (16 * high + low) :: pairUp rest
  | _ => []

/-- Reads bytes written as pairs of hexadecimal digits. -/
def Place.hex (place : Place) : Step (List UInt8 × Place) := do
  let (text, behind) ← place.text ['>']
  match text.toList.mapM hexDigit? with
  | none => behind.refuse (.badHex text)
  | some digits =>
    if digits.length % 2 = 0 then .ok (pairUp digits, behind) else behind.refuse .oddHex

/-- Reads the name of an element; an empty one is no name. -/
def Place.name (place : Place) : Step (Option String × Place) :=
  match place.rest with
  | '\\' :: '0' :: ':' :: _ => .ok (some "", place.skip 2)
  | _ => do
    let (name, behind) ← place.text [':']
    return (if name.isEmpty then none else some name, behind)

/-- Elements as they were read, with their names. -/
abbrev Elements := List (Option String × Value)

/-- The map key under which the type of a written object is kept. -/
def typeKey : String := "__type"

/-- The map of read elements; those without a name get no key. -/
def mapOf (elements : Elements) : Collection Value :=
  elements.foldl (fun collection (name, value) =>
    match name with
    | some key => collection.insertKey key value
    | none => collection.push value) .emptyMap

/-- The enumeration of read elements; an element that is no number stands for zero. -/
def enumerationOf (name : String) (elements : Elements) : Enumeration :=
  ⟨name, .ofList (elements.map fun (entry, value) =>
    (entry.getD "", Value.toInteger value.toNumber))⟩

/-- The map that stands for a written object. -/
def objectOf (typeTag : String) (elements : Elements) : Collection Value :=
  .ofEntries ((typeKey, .string typeTag) ::
    elements.map fun (name, value) => (name.getD "", value))

/-- Reads the payload behind a tag; `children` reads the elements at a place. -/
def payload (children : Place → Step (Elements × Place)) (tag : String) (place : Place) :
    Step (Value × Place) :=
  match tag with
  | "NUM" => do
    let (text, behind) ← place.text ['>']
    match Number.parse? text.toList with
    | some number => return (.number number, behind)
    | none => behind.refuse (.badNumber text)
  | "STR" => do
    let (text, behind) ← place.text ['>']
    return (.string text, behind)
  | "BYT" => do
    let (bytes, behind) ← place.hex
    return (.ofData (.bytes bytes), behind)
  | "DAT" => do
    let (text, behind) ← place.text ['>']
    match DateTime.parse? text.toList with
    | some moment => return (.ofData (.dateTime moment), behind)
    | none => behind.refuse (.badDate text)
  | "ARR" => do
    let (elements, behind) ← children place
    return (.array (elements.map (·.2)), behind)
  | "MAP" => do
    let (elements, behind) ← children place
    return (.collection (mapOf elements), behind)
  | "ENU" => do
    let (name, entries) ← place.text ['<', '>']
    let (elements, behind) ← children entries
    return (.ofData (.enumeration (enumerationOf name elements)), behind)
  | "OBJ" => do
    let (typeTag, fields) ← place.text ['<', '>']
    let (elements, behind) ← children fields
    return (.collection (objectOf typeTag elements), behind)
  | "NON" => .ok (.null, place)
  | tag => place.refuse (.unknownTag tag)

mutual

/-- Reads one element with its name; `fuel` bounds the characters it may take. -/
def readElement : Nat → Place → Step ((Option String × Value) × Place)
  | 0, place => place.refuse .unterminatedElement
  | fuel + 1, place => do
    let named ← place.expect '<'
    let (name, separated) ← named.name
    let tagged ← separated.expect ':'
    let tag := String.ofList (tagged.rest.take 3)
    let content ← (tagged.skip 3).expect ':'
    let (value, finished) ← payload (readElements fuel) tag content
    let behind ← finished.expect '>'
    return ((name, value), behind)

/-- Reads elements as long as they follow each other. -/
def readElements : Nat → Place → Step (Elements × Place)
  | 0, place => .ok ([], place)
  | fuel + 1, place =>
    if place.rest.head? = some '<' then do
      let (first, next) ← readElement fuel place
      let (others, behind) ← readElements fuel next
      return (first :: others, behind)
    else .ok ([], place)

end

/-- Reads the one element that a text without its surrounding blanks consists of. -/
def readWhole (text : List Char) : Step Value := do
  let ((_, value), behind) ← readElement (text.length + 1) ⟨0, text⟩
  if behind.rest.isEmpty then return value else .error (behind.offset, .trailingText)

/-- The value that a tagged text denotes. -/
def toValue (text : String) : Result Value :=
  match readWhole (Text.trim text.toList) with
  | .ok value => .ok value
  | .error (offset, fault) => fail (.syntaxError (.malformedTagged offset fault) 0)

end ScriptEngine.Tagged

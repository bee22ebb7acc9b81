import ScriptEngine.Text.Case
import ScriptEngine.Text.Search
import ScriptEngine.Value.Coercion

/-! Properties and methods that values have without any declaration. -/

namespace ScriptEngine.Value

/-- A name in lower case, since the names of built-in members have no case. -/
def memberName (name : String) : String := String.ofList (name.toList.map Char.toLower)

/-- Reads a built-in property, if the value has it. -/
def builtinProperty? (value : Value) (name : String) : Option Value :=
  match memberName name, value.data with
  | "type", _ => some (.string value.typeName)
  | "string", _ => some (.string value.display)
  | "properties", _ => some (.array (value.fields.names.map .string))
  | "size", _ => value.size?.map .ofNat
  | "length", _ => value.size?.map .ofNat
  | "empty", _ => value.size?.map fun size => .ofBool (size == 0)
  | "keys", .collection collection =>
    if collection.isMap then some (.array (collection.keys.map .string))
    else some (.array ((List.range collection.size).map .ofNat))
  | "keys", .enumeration enumeration => some (.array (enumeration.entries.names.map .string))
  | "values", .collection collection => some (.array collection.items)
  | "values", .enumeration enumeration => some (.array (enumeration.entries.values.map .ofInt))
  | "first", .collection collection => some (collection.items.head?.getD .undefined)
  | "last", .collection collection => some (collection.items.getLast?.getD .undefined)
  | "first", .string text => some ((text.toList.head?.map .ofChar).getD .undefined)
  | "last", .string text => some ((text.toList.getLast?.map .ofChar).getD .undefined)
  | "upper", .string text => some (.string (Text.upper text))
  | "lower", .string text => some (.string (Text.lower text))
  | "trim", .string text => some (.string (String.ofList (Text.trim text.toList)))
  | "reverse", .string text => some (.string (String.ofList text.toList.reverse))
  | "reverse", .collection collection => some (.array collection.items.reverse)
  | "sort", .collection collection => some (.array (sort collection.items))
  | _, _ => none

/-- The argument at a position, undefined if there is none. -/
def argument (arguments : List Value) (position : Nat) : Value :=
  arguments[position]?.getD .undefined

/-- The part of a text from the position `first` argument on, as long as the second one says. -/
def substring (text : List Char) (arguments : List Value) : List Char :=
  let behind := text.drop (truncated (argument arguments 0).toNumber)
  match arguments[1]? with
  | some length => behind.take (truncated length.toNumber)
  | none => behind

/-- Calls a built-in method that leaves its receiver alone, if the value has it. -/
def builtinMethod? (value : Value) (name : String) (arguments : List Value) :
    Result (Option Value) :=
  let first := argument arguments 0
  match memberName name, value.data with
  | "contains", .string text =>
    .ok (some (.ofBool (Text.occurs first.display.toList text.toList)))
  | "contains", .collection collection =>
    let byKey := collection.isMap && collection.containsKey first.display
    .ok (some (.ofBool (byKey || collection.items.any (· == first))))
  | "replace", .string text =>
    let replacement := (argument arguments 1).display.toList
    .ok (some (.string (String.ofList (Text.replace first.display.toList replacement text.toList))))
  | "indexof", .string text =>
    .ok (some (((Text.find? first.display.toList text.toList).map .ofNat).getD (.number (-1))))
  | "indexof", .collection collection =>
    .ok (some (((collection.items.findIdx? (· == first)).map .ofNat).getD (.number (-1))))
  | "substring", .string text =>
    .ok (some (.string (String.ofList (substring text.toList arguments))))
  | "split", .string text =>
    let separator := (arguments[0]?.map display).getD " "
    .ok (some (.array ((Text.split separator.toList text.toList).map fun part =>
      .string (String.ofList part))))
  | "join", .collection collection =>
    let separator := (arguments[0]?.map display).getD ""
    .ok (some (.string (String.intercalate separator (collection.items.map display))))
  | "at", .collection collection =>
    match first.data with
    | .string key => .ok (some ((collection.getKey? key).getD .undefined))
    | _ => do return some ((collection.get? (← first.toIndex)).getD .undefined)
  | "at", .string text => do
    return some (((text.toList[← first.toIndex]?).map .ofChar).getD .undefined)
  | _, _ => .ok none

/-- The built-in methods that change their receiver. -/
def mutatingMethods : List String := ["add", "insert", "remove", "removeat", "clear"]

/-- Whether a name is that of a built-in method that changes its receiver. -/
def isMutatingMethod (name : String) : Bool := mutatingMethods.contains (memberName name)

/-- Applies a method to a collection: the collection behind it and the result of the call. -/
def mutateCollection (collection : Collection Value) (name typeName : String)
    (arguments : List Value) : Result (Collection Value × Value) :=
  let first := argument arguments 0
  match name with
  | "add" =>
    let grown := arguments.foldl Collection.push collection
    .ok (grown, .ofNat grown.size)
  | "insert" => do
    let grown := collection.insertAt (← first.toIndex) (argument arguments 1)
    return (grown, .ofNat grown.size)
  | "remove" =>
    let position := match first.data with
      | .string key => collection.position? key
      | _ => none
    -- A string that is no key, like any other value, stands for the first element equal to it.
    match position.or (collection.items.findIdx? (· == first)) with
    | some position => .ok (collection.removeAt position, .ofBool true)
    | none => .ok (collection, .ofBool false)
  | "removeat" => do
    let position ← first.toIndex
    return (collection.removeAt position, (collection.get? position).getD .undefined)
  | "clear" => .ok (collection.clear, .null)
  | _ => fail (.typeMismatch (.receiverSupporting name) typeName)

/-- Calls a built-in method that changes its receiver: the receiver behind the call and its result,
or nothing if the value is no collection. Adding to nothing starts an array. -/
def mutate? (value : Value) (name : String) (arguments : List Value) :
    Result (Option (Value × Value)) :=
  let member := memberName name
  let receiver := if value.isNothing && member == "add" then .array [] else value
  match receiver.asCollection? with
  | none => .ok none
  | some collection => do
    let (changed, result) ← mutateCollection collection member receiver.typeName arguments
    return some (receiver.withData (.collection changed), result)

end ScriptEngine.Value

import ScriptEngine.Text.Search
import ScriptEngine.Value.Coercion

/-! Typed parameters of compiled functions and the sorting of arguments by type. -/

namespace ScriptEngine

/-- The declared type of a compiled function's parameter. -/
inductive ArgKind where
  | string
  | number
  | int
  | strings
  | numbers
  deriving DecidableEq, Repr

namespace ArgKind

/-- The usual name of a type. -/
def name : ArgKind → String
  | .string => "string"
  | .number => "number"
  | .int => "int"
  | .strings => "strings"
  | .numbers => "numbers"

/-- The type with a name. -/
def ofName? : String → Option ArgKind
  | "string" => some .string
  | "number" => some .number
  | "double" => some .number
  | "int" => some .int
  | "strings" => some .strings
  | "numbers" => some .numbers
  | _ => none

end ArgKind

/-- A parameter with its declared type. -/
structure TypedParam where
  name : String
  kind : ArgKind
  deriving DecidableEq, Repr

namespace TypedParam

/-- Reads a declaration: a type and a name with a space between them. -/
def ofText (function : String) (text : List Char) : Result TypedParam :=
  match Text.cut? [' '] text with
  | none => fail (.syntaxError (.untypedParameter (String.ofList text) function) 0)
  | some (kind, name) =>
    match ArgKind.ofName? (String.ofList (Text.trim kind)) with
    | some known => .ok ⟨String.ofList (Text.trim name), known⟩
    | none => fail (.syntaxError (.unknownParameterType (String.ofList kind) function) 0)

/-- Reads a list of declarations. -/
def ofTexts (function : String) (texts : List (List Char)) : Result (List TypedParam) :=
  texts.mapM (ofText function)

end TypedParam

/-- Arguments sorted by type, each list in the order of the declarations. -/
structure ArgBuckets where
  strings : List String := []
  numbers : List Float := []
  ints : List Int := []
  stringArrays : List (List String) := []
  numberArrays : List (List Float) := []

namespace ArgBuckets

/-- The failure to read a value as a parameter's type. -/
def mismatch {α : Type} (param : TypedParam) (value : Value) : Result α :=
  fail (.typeMismatch (.typedParameter param.kind.name param.name) value.typeName)

/-- Reads a value as a number. -/
def readNumber (param : TypedParam) (value : Value) : Result Float :=
  match value.number? with
  | some number => .ok number
  | none => mismatch param value

/-- Reads a value as the elements of an array. -/
def readElements (param : TypedParam) (value : Value) : Result (List Value) :=
  match value.asCollection? with
  | some collection => .ok collection.items
  | none => mismatch param value

/-- Puts one argument behind the others of its type. -/
def add (buckets : ArgBuckets) (param : TypedParam) (value : Value) : Result ArgBuckets :=
  match param.kind with
  | .string => .ok { buckets with strings := buckets.strings ++ [value.display] }
  | .number => do
    return { buckets with numbers := buckets.numbers ++ [← readNumber param value] }
  | .int => do
    return { buckets with ints := buckets.ints ++ [Value.toInteger (← readNumber param value)] }
  | .strings => do
    let elements ← readElements param value
    return { buckets with stringArrays := buckets.stringArrays ++ [elements.map Value.display] }
  | .numbers => do
    let elements ← readElements param value
    return { buckets with
      numberArrays := buckets.numberArrays ++ [← elements.mapM (readNumber param)] }

/-- Sorts arguments by the types of their parameters. -/
def sort (function : String) (params : List TypedParam) (arguments : List Value) :
    Result ArgBuckets :=
  if params.length = arguments.length then
    (params.zip arguments).foldlM (fun buckets (param, value) => buckets.add param value) {}
  else fail (.arguments function (.wrongCount params.length arguments.length))

end ArgBuckets

/-- A backend that turns the bodies of compiled functions into callables. -/
structure Compiler where
  /-- Compiles a body by its function's name, parameters and text, or says why it cannot. -/
  compile : String → List TypedParam → String → Except String (ArgBuckets → Result Value)

end ScriptEngine

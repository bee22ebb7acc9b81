import ScriptEngine.Keyword
import ScriptEngine.Source.Cursor
import ScriptEngine.Typed

/-! What a name can stand for: keywords, operators, functions, values and classes. -/

namespace ScriptEngine

/-- The functions that every interpreter starts with. -/
inductive Builtin where
  | print
  | write
  | type
  | str
  | num
  | isDefined
  | marshal
  | unmarshal
  | include
  | join
  | sleep
  | cancel
  deriving DecidableEq, Repr

/-- What a host function may know about the place it is called from. -/
structure CallSite where
  site : Site
  callDepth : Nat
  /-- The names of the frames on the scope stack, outermost first. -/
  frames : List String

/-- How a native function works. -/
inductive NativeBody where
  | builtin (builtin : Builtin)
  | host (run : CallSite → List Value → Result Value)

/-- A function that is not written in the script language. -/
structure Native where
  name : String
  /-- The number of arguments it takes; none if it takes any number. -/
  arity : Option Nat
  body : NativeBody

/-- An operator that gives a target a new value. -/
structure Action where
  token : String
  /-- Whether an expression follows the token. -/
  takesOperand : Bool
  /-- Whether the target must have a value already. -/
  readsTarget : Bool
  /-- The new value, from the target's value and the operand. -/
  apply : Value → Value → Result Value

/-- A declared parameter; the default is an expression. -/
structure Param where
  name : String
  default : Option (List Char)
  deriving DecidableEq, Repr

/-- A function written in the script language. Its text is read again on every call. -/
structure ScriptFunction where
  name : String
  params : List Param
  body : List Char
  /-- The place of the definition, to which failures in the body are attributed. -/
  site : Site
  /-- The namespace it was defined in. -/
  scope : Option String
  /-- The class it is a method or a constructor of. -/
  owner : Option String
  deriving DecidableEq, Repr

/-- The number of parameters without a default. -/
def ScriptFunction.required (function : ScriptFunction) : Nat :=
  (function.params.filter (·.default.isNone)).length

/-- A function whose body a backend has compiled. -/
structure CompiledFunction where
  name : String
  params : List TypedParam
  invoke : ArgBuckets → Result Value

/-- A class of the script language. -/
structure ClassDef where
  name : String
  bases : List String := []
  methods : OrderedMap ScriptFunction := .empty
  /-- The values that the fields of a new instance start with. -/
  defaults : OrderedMap Value := .empty
  /-- The constructor for each number of arguments that one accepts. -/
  constructors : List (Nat × ScriptFunction) := []

/-- What a name can stand for. -/
inductive Handler where
  | keyword (keyword : Keyword)
  | action (action : Action)
  | native (native : Native)
  | function (function : ScriptFunction)
  | compiled (function : CompiledFunction)
  | variable (value : Value)
  | classDef (definition : ClassDef)

/-- What can be done with a handler. -/
inductive Capability where
  | statement
  | action
  | function
  | variable
  | classDef
  | instanceObject
  deriving DecidableEq, Repr

/-- The word for a capability. -/
def Capability.describe : Capability → String
  | .statement => "Statement"
  | .action => "Action"
  | .function => "Function"
  | .variable => "Variable"
  | .classDef => "Class"
  | .instanceObject => "Instance"

namespace Handler

/-- What can be done with a handler. -/
def capability : Handler → Capability
  | .keyword _ => .statement
  | .action _ => .action
  | .native _ => .function
  | .function _ => .function
  | .compiled _ => .function
  | .variable value =>
    match value.data with
    | .object ⟨_, .scripted _⟩ => .instanceObject
    | _ => .variable
  | .classDef _ => .classDef

/-- The value that a handler holds. -/
def value? : Handler → Option Value
  | .variable value => some value
  | _ => none

end Handler

namespace ClassDef

/-- Gives `count` arguments to a constructor, in place of any earlier one. -/
def setConstructor (definition : ClassDef) (count : Nat) (constructor : ScriptFunction) : ClassDef :=
  { definition with constructors := (count, constructor) :: definition.constructors }

/-- Takes over the members of a base class, which replace earlier ones of the same name. -/
def inherit (definition base : ClassDef) : ClassDef :=
  { definition with
    methods := base.methods.entries.foldl (fun methods (name, method) =>
      methods.insert name method) definition.methods
    defaults := base.defaults.entries.foldl (fun defaults (name, value) =>
      defaults.insert name value) definition.defaults
    constructors := base.constructors ++ definition.constructors }

/-- Declares a constructor for every number of arguments that its defaults allow. -/
def addConstructor (definition : ClassDef) (constructor : ScriptFunction) : ClassDef :=
  let optional := constructor.params.length - constructor.required
  (List.range (optional + 1)).foldl (fun definition extra =>
    definition.setConstructor (constructor.required + extra) constructor) definition

/-- Declares a method, or a constructor if it is named like the class. -/
def addMethod (definition : ClassDef) (method : ScriptFunction) : ClassDef :=
  if method.name = definition.name then definition.addConstructor method
  else { definition with methods := definition.methods.insert method.name method }

/-- Declares a field with the value it starts with. -/
def addField (definition : ClassDef) (name : String) (value : Value) : ClassDef :=
  { definition with defaults := definition.defaults.insert name value }

/-- The constructor for a number of arguments. -/
def constructor? (definition : ClassDef) (count : Nat) : Option ScriptFunction :=
  definition.constructors.lookup count

end ClassDef

end ScriptEngine

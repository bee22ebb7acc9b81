import ScriptEngine.Eval.Basic

/-! Call arguments and their binding to parameters. -/

namespace ScriptEngine

/-- An evaluated argument as it was written. -/
structure Arg where
  /-- The parameter that it names. -/
  name : Option String := none
  /-- Its expression. -/
  source : List Char := []
  value : Value

/-- An argument that was not written in a call. -/
def Arg.positional (value : Value) : Arg := { value }

/-- Splits an argument into the parameter that it names and its expression. -/
def splitNamed (text : List Char) : Option String × List Char :=
  let word := text.takeWhile Text.isWordChar
  match text.dropWhile Text.isWordChar with
  | '=' :: rest =>
    if Text.isIdentifier word && rest.head? != some '=' then (some (String.ofList word), rest)
    else (none, text)
  | _ => (none, text)

/-- Evaluates the arguments written in `parts`. -/
def evaluateArgs (eval : Evaluator) (site : Site) : List (List Char) → Eval (List Arg)
  | [] => return []
  | part :: rest => do
    let (name, source) := splitNamed part
    let value ← evaluateAs eval .argument site source
    return ⟨name, source, value⟩ :: (← evaluateArgs eval site rest)

/-- Reads and evaluates the argument list at a cursor; without parentheses there are no arguments. -/
def readArgs (eval : Evaluator) (cursor : Cursor) : Eval (List Arg × Cursor) := do
  let here := cursor.skipSpaces
  if here.current = some '(' then
    let (text, behind) ← Eval.ofRead (here.readBalanced '(' ')')
    return (← evaluateArgs eval behind.site (splitTopLevel text ','), behind)
  else return ([], here)

/-- Arguments matched to the parameters of a callee. -/
structure Bound where
  /-- The value for each parameter; none where the default applies. -/
  slots : List (Option Value)
  /-- Arguments without a parameter, under the names that they get as locals. -/
  extras : List (String × Value) := []

namespace Bound

/-- The value of an argument, unless it is undefined and stands for the default. -/
def defined? (value : Value) : Option Value := if value.isUndefined then none else some value

/-- The name under which a surplus argument is bound: its own, if it is written as one name. -/
def surplusName (position : Nat) (source : List Char) : String :=
  if Text.isIdentifier source then String.ofList source else "_arg" ++ toString position

/-- Puts one argument in its place. `named` tells whether a named argument came before it. -/
def add (params : List Param) (named : Bool) (position : Nat) (arg : Arg) (bound : Bound) :
    Except ArgumentFault Bound :=
  let value := defined? arg.value
  let extra := fun name =>
    .ok { bound with extras := bound.extras ++ [(name, value.getD .undefined)] }
  match arg.name with
  | some name =>
    match params.findIdx? (·.name == name) with
    | some place =>
      if ((bound.slots[place]?).join).isSome then .error (.boundTwice name)
      else .ok { bound with slots := bound.slots.set place value }
    | none => extra name
  | none =>
    if named then .error (.positionalAfterNamed (position + 1))
    else if position < params.length then .ok { bound with slots := bound.slots.set position value }
    else extra (surplusName position arg.source)

/-- Puts the arguments from `position` on in their places. -/
def addAll (params : List Param) : Bool → Nat → List Arg → Bound → Except ArgumentFault Bound
  | _, _, [], bound => .ok bound
  | named, position, arg :: rest, bound => do
    let next ← bound.add params named position arg
    addAll params (named || arg.name.isSome) (position + 1) rest next

/-- The first parameter that has neither a value nor a default. -/
def missing? (params : List Param) (bound : Bound) : Option Param :=
  ((params.zip bound.slots).find? fun (param, slot) =>
    slot.isNone && param.default.isNone).map (·.1)

/-- Matches arguments to parameters: in order, then by name. Undefined values leave a parameter to
its default, and what fits no parameter becomes an extra local. -/
def ofArgs (params : List Param) (args : List Arg) : Except ArgumentFault Bound := do
  let bound ← addAll params false 0 args ⟨params.map fun _ => none, []⟩
  match bound.missing? params with
  | some param => .error (.missing param.name)
  | none => return bound

end Bound

/-- Matches arguments to the parameters of a named function. -/
def bindArgs (function : String) (params : List Param) (args : List Arg) : Result Bound :=
  match Bound.ofArgs params args with
  | .ok bound => .ok bound
  | .error fault => fail (.arguments function fault)

end ScriptEngine

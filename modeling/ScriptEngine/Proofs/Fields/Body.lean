import ScriptEngine.Proofs.Grammar.Container

/-! Bodies of methods that read and write the fields of their instance, by bare name and through
`this`, and call its methods: how they are written, and what they do where each field is one variable.

A call works on copies of the fields, which it takes when it starts and gives back when it ends. What a
body does is only told as long as it uses no copy that another use of the field has made stale. -/

namespace ScriptEngine

/-- A word that can name a field, a method or a parameter: an identifier other than a constant. -/
structure Ident where
  text : List Char
  identifier : Text.isIdentifier text = true
  free : constant? (String.ofList text) = none

/-- The name that a word is. -/
def Ident.name (ident : Ident) : String := String.ofList ident.text

/-- How a body gets at a member of its instance. -/
inductive Access where
  /-- By its bare name, which is a local for a field. -/
  | bare
  /-- Through `this`. -/
  | qualified
  deriving DecidableEq, Repr

/-- The other way to get at a member. -/
def Access.other : Access → Access
  | .bare => .qualified
  | .qualified => .bare

/-- An expression in the body of a method. -/
inductive MethodExpr where
  | number (numeral : Numeral)
  /-- A parameter or a surplus argument. -/
  | argument (name : Ident)
  | field (access : Access) (name : Ident)
  | call (access : Access) (method : Ident) (args : List MethodExpr)
  | join (operator : Operator) (left right : MethodExpr)

/-- An action of the language, by whether an operand follows it. -/
abbrev PreludeAction (takesOperand : Bool) :=
  { action : Action // action ∈ preludeActions ∧ action.takesOperand = takesOperand }

/-- A statement in the body of a method. -/
inductive MethodStatement where
  /-- Gives a field the value that an action makes of an operand. -/
  | assign (access : Access) (field : Ident) (action : PreludeAction true) (value : MethodExpr)
  /-- Changes a field by an action without an operand. -/
  | step (access : Access) (field : Ident) (action : PreludeAction false)
  | giveBack (value : MethodExpr)
  | evaluate (value : MethodExpr)
  | branch (condition : MethodExpr) (yes no : List MethodStatement)
  | loop (condition : MethodExpr) (body : List MethodStatement)

/-- A method. -/
structure Method where
  name : Ident
  params : List Ident
  body : List MethodStatement
  site : Site

/-- The methods of a class. -/
structure MethodTable where
  owner : String
  /-- The namespace that the class was defined in. -/
  scope : Option String
  methods : List Method

/-! How bodies are written. -/

/-- A member of the instance as it is written. -/
def Access.text (access : Access) (member : Ident) : List Char :=
  match access with
  | .bare => member.text
  | .qualified => "this.".toList ++ member.text

namespace MethodExpr

/-- How tight the outermost operator of an expression binds. -/
def level : MethodExpr → Nat
  | join operator _ _ => operator.precedence
  | _ => 6

/-- The bare name that an expression starts with, if it starts with one. -/
def lead? : MethodExpr → Option Ident
  | argument name => some name
  | field .bare name => some name
  | call .bare name _ => some name
  | join operator left _ => if left.level < operator.precedence then none else left.lead?
  | _ => none

mutual

/-- An expression as it is written, with the brackets that precedence and associativity ask for. -/
def text : MethodExpr → List Char
  | number numeral => numeral.text
  | argument name => name.text
  | field access name => access.text name
  | call access method args => access.text method ++ '(' :: (listed ',' (texts args) ++ [')'])
  | join operator left right =>
    bracket (left.level < operator.precedence) left.text ++
      (operator.symbol.toList ++ bracket (right.level < operator.precedence + 1) right.text)

/-- Arguments as they are written. -/
def texts : List MethodExpr → List (List Char)
  | [] => []
  | arg :: args => arg.text :: texts args

end

mutual

/-- The same expression with each bare use of a field through `this`. -/
def qualify : MethodExpr → MethodExpr
  | field _ name => field .qualified name
  | call access method args => call access method (qualifyAll args)
  | join operator left right => join operator left.qualify right.qualify
  | number numeral => number numeral
  | argument name => argument name

/-- The same arguments with each bare use of a field through `this`. -/
def qualifyAll : List MethodExpr → List MethodExpr
  | [] => []
  | arg :: args => arg.qualify :: qualifyAll args

end

end MethodExpr

namespace MethodStatement

mutual

/-- A statement as it is written. -/
def text : MethodStatement → List Char
  | assign access field action value =>
    access.text field ++ (action.val.token.toList ++ (value.text ++ [';']))
  | step access field action => access.text field ++ (action.val.token.toList ++ [';'])
  | giveBack value => "return".toList ++ ' ' :: (value.text ++ [';'])
  | evaluate value => value.text ++ [';']
  | branch condition yes no =>
    "if".toList ++ '(' :: (condition.text ++ ')' :: '{' :: (allText yes ++ '}' ::
      ("else".toList ++ '{' :: (allText no ++ ['}']))))
  | loop condition body =>
    "while".toList ++ '(' :: (condition.text ++ ')' :: '{' :: (allText body ++ ['}']))

/-- Statements as they are written. -/
def allText : List MethodStatement → List Char
  | [] => []
  | statement :: rest => statement.text ++ allText rest

end

mutual

/-- The same statement with each bare use of a field through `this`. -/
def qualify : MethodStatement → MethodStatement
  | assign _ field action value => assign .qualified field action value.qualify
  | step _ field action => step .qualified field action
  | giveBack value => giveBack value.qualify
  | evaluate value => evaluate value.qualify
  | branch condition yes no => branch condition.qualify (qualifyAll yes) (qualifyAll no)
  | loop condition body => loop condition.qualify (qualifyAll body)

/-- The same statements with each bare use of a field through `this`. -/
def qualifyAll : List MethodStatement → List MethodStatement
  | [] => []
  | statement :: rest => statement.qualify :: qualifyAll rest

end

end MethodStatement

namespace Method

/-- The same method with each bare use of a field through `this`. -/
def qualify (method : Method) : Method :=
  { method with body := MethodStatement.qualifyAll method.body }

/-- The parameters that a method declares, none with a default. -/
def declared (method : Method) : List Param := method.params.map fun param => ⟨param.name, none⟩

/-- The body of a method as it is written. -/
def text (method : Method) : List Char := MethodStatement.allText method.body

end Method

namespace MethodTable

/-- The same methods with each bare use of a field through `this`. -/
def qualify (table : MethodTable) : MethodTable :=
  { table with methods := table.methods.map Method.qualify }

/-- What a method is declared as. -/
def function (table : MethodTable) (method : Method) : ScriptFunction :=
  ⟨method.name.name, method.declared, method.text, method.site, table.scope, some table.owner⟩

/-- The methods under their names. -/
def definitions (table : MethodTable) : OrderedMap ScriptFunction :=
  ⟨table.methods.map fun method => (method.name.name, table.function method)⟩

/-- The method with a name. -/
def find? (table : MethodTable) (name : String) : Option Method :=
  table.methods.find? (·.name.name == name)

/-- The keywords that the statements of bodies start with. -/
def keywords : List String := ["return", "if", "while"]

/-- The names that stand for something else than arguments and fields in a body. -/
def taken (table : MethodTable) : List String :=
  "this" :: (keywords ++ table.methods.map (·.name.name))

end MethodTable

/-! What bodies do. -/

/-- A number that is equal to itself and to no other: not to be a number is equal to nothing, and the
two zeros are equal. -/
def Value.isDefinite : Value → Bool
  | ⟨.number x, ⟨[]⟩, ⟨[]⟩⟩ => x == x && x.toBits != (-0 : Float).toBits
  | _ => false

/-- What a call knows of the fields of its instance. -/
structure FieldView where
  /-- The fields, each of which is one variable. -/
  fields : OrderedMap Value
  /-- The arguments of the call under their names. -/
  locals : OrderedMap Value := .empty
  /-- The fields that the call has written by bare name. -/
  ahead : List String := []
  /-- The fields that have been written through `this` or by other calls since the call started. -/
  behind : List String := []
  /-- The fields that calls further out have written by bare name. -/
  hidden : List String := []
  /-- The number of active calls. -/
  calls : Nat

namespace FieldView

/-- The fields that have been written one way since the call started. -/
def touched (view : FieldView) : Access → List String
  | .bare => view.ahead
  | .qualified => view.behind

/-- The fields for which what one way of access leads to is stale: those that have been written the
other way, or by bare name in a call further out. -/
def stale (view : FieldView) (access : Access) : List String :=
  view.touched access.other ++ view.hidden

/-- The value of a field, unless it is stale. -/
def read? (view : FieldView) (access : Access) (field : String) : Option Value :=
  if field ∈ view.stale access then none else view.fields.get? field

/-- A field has been written. -/
def written (view : FieldView) (access : Access) (field : String) (value : Value) : FieldView :=
  let fields := view.fields.insert field value
  match access with
  | .bare => { view with fields, ahead := field :: view.ahead }
  | .qualified => { view with fields, behind := field :: view.behind }

/-- Writes a definite number to a field, unless it is stale. -/
def write? (view : FieldView) (access : Access) (field : String) (value : Value) :
    Option FieldView :=
  if field ∈ view.stale access ∨ field ∉ view.fields.names ∨ value.isDefinite = false then none
  else some (view.written access field value)

/-- Whether a bare name is one of a field, an argument or a method. -/
def knows (view : FieldView) (table : MethodTable) (name : String) : Bool :=
  view.fields.names.contains name || (view.locals.get? name).isSome || (table.find? name).isSome

/-- What a call starts with that is made behind a view. -/
def enter (view : FieldView) (locals : OrderedMap Value) : FieldView where
  fields := view.fields
  locals := locals
  hidden := view.ahead ++ view.hidden
  calls := view.calls + 1

/-- What a call goes on with behind one that it has made. -/
def leave (view : FieldView) (ended : FieldView) : FieldView :=
  { view with
    fields := ended.fields
    behind := ended.ahead ++ ended.behind ++ view.behind }

end FieldView

/-- What is told of a computation: how it ends and the fields then, unless it uses what is stale. -/
abbrev Told := ExceptT Stop (StateT FieldView Option)

namespace Told

/-- What a computation does to a view, if it is told. -/
def mk {α : Type} (run : FieldView → Option (Except Stop α × FieldView)) : Told α := run

/-- Ends as a result does. -/
def ofResult {α : Type} : Result α → Told α
  | .ok value => pure value
  | .error failure => throw (.failed failure)

/-- Reads a field. -/
def read (access : Access) (field : Ident) : Told Value :=
  .mk fun view => (view.read? access field.name).map fun value => (.ok value, view)

/-- Writes a field. -/
def write (access : Access) (field : Ident) (value : Value) : Told Unit :=
  .mk fun view => (view.write? access field.name value).map fun written => (.ok (), written)

/-- Goes on where the view allows that. -/
def allow (allowed : FieldView → Prop) [DecidablePred allowed] : Told Unit :=
  .mk fun view => if allowed view then some (.ok (), view) else none

/-- Reads an argument. -/
def argument (name : Ident) : Told Value :=
  .mk fun view => (view.locals.get? name.name).map fun value => (.ok value, view)

end Told

/-- What is nested in a body. -/
inductive MethodPhrase where
  | expression (expr : MethodExpr)
  | statement (statement : MethodStatement)

/-- Tells what a phrase does. -/
abbrev Teller := MethodPhrase → Told Value

/-- How a call ends whose body has ended so. -/
def callOutcome (function : String) : Except Stop Value → Except Stop Value
  | .ok value => .ok value.outcome
  | .error (.failed failure) => .error (.failed (failure.inFrame function))
  | .error .exhausted => .error .exhausted

/-- The names under which the arguments of a call are bound. -/
def Bound.names (bound : Bound) (params : List Param) : List String :=
  params.map (·.name) ++ bound.extras.map (·.1)

/-- The arguments of a call under the names that they have in its body. -/
def Bound.locals (bound : Bound) (params : List Param) : List (String × Value) :=
  (params.zip bound.slots).map (fun (param, slot) => (param.name, slot.getD .undefined)) ++
    bound.extras

/-- Tells what statements do behind one with a value. -/
def tellAll (tell : Teller) : Value → List MethodStatement → Told Value
  | last, [] => return last
  | _, statement :: rest => do
    let value ← tell (.statement statement)
    if value.isSignal then return value else tellAll tell value rest

namespace Method

variable (table : MethodTable) (config : Config) (tell : Teller)

/-- Tells what the body of a method does with its arguments. No argument may hide a member. -/
def tellBody (method : Method) (bound : Bound) (view : FieldView) :
    Option (Except Stop Value × FieldView) :=
  if ∃ name ∈ bound.names method.declared, name ∈ table.taken ∨ name ∈ view.fields.names then none
  else (tellAll tell .null method.body : Told Value)
    (view.enter (.ofList (bound.locals method.declared)))

/-- Tells what a call of a method does. -/
def tellCall (method : Method) (args : List Arg) : Told Value :=
  .mk fun view =>
    match bindArgs method.name.name method.declared args with
    | .error failure => some (.error (.failed failure), view)
    | .ok bound =>
      if config.maxCallDepth ≤ view.calls then
        some (.error (.failed ⟨.stackOverflow view.calls config.maxCallDepth, []⟩), view)
      else (method.tellBody table tell bound view).map fun (result, ended) =>
        (callOutcome method.name.name result, view.leave ended)

end Method

namespace MethodExpr

variable (table : MethodTable) (config : Config) (tell : Teller)

/-- Tells what the arguments of a call are. -/
def tellArgs : List MethodExpr → Told (List Arg)
  | [] => return []
  | arg :: args => do
    let value ← tell (.expression arg)
    return ⟨none, arg.text, value⟩ :: (← tellArgs args)

/-- Tells what an operator makes of a value and what is told of its right operand, which is left out
where it cannot change the result. -/
def tellJoin (operator : Operator) (first : Value) (second : Told Value) : Told Value :=
  match operator with
  | .or => if first.truthy then return .ofBool true else return .ofBool (← second).truthy
  | .and => if !first.truthy then return .ofBool false else return .ofBool (← second).truthy
  | .binary op => do Told.ofResult (op.apply first (← second))

/-- Tells what an expression does. Arguments and what is in brackets are nested in it. -/
def tells : MethodExpr → Told Value
  | number numeral => return .number numeral.value
  | argument name => .argument name
  | field access name => .read access name
  | call _ name args =>
    match table.find? name.name with
    | some method => do method.tellCall table config tell (← tellArgs tell args)
    | none => .mk fun _ => none
  | join operator left right => do
    let first ← (if left.level < operator.precedence then tell (.expression left) else left.tells)
    tellJoin operator first
      (if right.level < operator.precedence + 1 then tell (.expression right) else right.tells)

end MethodExpr

namespace MethodStatement

variable (table : MethodTable) (config : Config) (tell : Teller)

/-- Tells what an expression does as a statement, where a bare name that it starts with is one of a
field, an argument or a method. -/
def tellEvaluate (value : MethodExpr) : Told Value := do
  Told.allow fun view => ∀ name ∈ value.lead?, view.knows table name.name = true
  tell (.expression value)

/-- Tells what an action does to a field with what is told of its operand. -/
def tellAction (access : Access) (field : Ident) (action : Action) (operand : Told Value) :
    Told Value := do
  let operand ← operand
  let current ← if action.readsTarget then Told.read access field else pure .null
  let result ← Told.ofResult (action.apply current operand)
  Told.write access field result
  return result

/-- Tells what an action does to a field that there is. -/
def tellKnown (access : Access) (field : Ident) (action : Action) (operand : Told Value) :
    Told Value := do
  Told.allow fun view => field.name ∈ view.fields.names
  tellAction access field action operand

/-- Tells what a loop does that may run so many more passes. -/
def tellLoop (condition : MethodExpr) (body : List MethodStatement) : Nat → Told Value
  | 0 => do
    if (← tell (.expression condition)).truthy then
      throw (.failed ⟨.infiniteLoop config.maxLoopIterations, []⟩)
    else return .null
  | left + 1 => do
    if (← tell (.expression condition)).truthy then
      let value ← tellAll tell .null body
      match value.data with
      | .breakSignal => return .null
      | .returnSignal _ => return value
      | .quitSignal _ => return value
      | _ => tellLoop condition body left
    else return .null

/-- Tells what a statement does. -/
def tells : MethodStatement → Told Value
  | assign access field action value => tellKnown access field action.val (tell (.expression value))
  | step access field action => tellKnown access field action.val (return .null)
  | giveBack value => return .returnSignal (← tell (.expression value))
  | evaluate value => tellEvaluate table tell value
  | branch condition yes no => do
    let chosen := if (← tell (.expression condition)).truthy then yes else no
    return (← tellAll tell .null chosen).signalOrNull
  | loop condition body => tellLoop config tell condition body config.maxLoopIterations

end MethodStatement

/-- Tells what a phrase does that is nested at most so deep. -/
def MethodTable.tell (table : MethodTable) (config : Config) : Nat → Teller
  | 0, _ => throw .exhausted
  | depth + 1, .expression expr => expr.tells table config (table.tell config depth)
  | depth + 1, .statement statement => statement.tells table config (table.tell config depth)

end ScriptEngine

import ScriptEngine.Eval.Argument

/-! Calls of functions written in the script language, and their declaration. -/

namespace ScriptEngine

/-- The instance of a script class that a value is. -/
def Value.instanceId? (value : Value) : Option Nat :=
  match value.data with
  | .object ⟨_, .scripted id⟩ => some id
  | _ => none

/-- Records a call. -/
def Engine.recordCall (engine : Engine) (function : String) : Engine :=
  { engine.noteCall (.entered function) with calls := function :: engine.calls }

/-- Records the entry into a call, unless too many are active. -/
def enterCall (function : String) : Eval Unit := do
  let engine ← get
  let limit := engine.config.maxCallDepth
  if limit ≤ engine.calls.length then
    Eval.throwCause (.stackOverflow engine.calls.length limit)
  set (engine.recordCall function)

/-- Records the end of the innermost call. -/
def Engine.exitCall (engine : Engine) : Engine := { engine with calls := engine.calls.drop 1 }

/-- Removes the innermost frames and calls until only so many are left, behind a failure that is
handled. -/
def Engine.unwindTo (engine : Engine) (depth calls : Nat) : Engine :=
  { engine.noteCall .handled with
    stack := engine.stack.truncate depth
    calls := engine.calls.drop (engine.calls.length - calls) }

/-- The names that a method finds in its frame: the methods, then the fields, then the receiver. -/
def Frame.seed (frame : Frame) (object : Instance) (this : Value) : Frame :=
  let withMethods := object.definition.methods.entries.foldl (fun frame (name, method) =>
    frame.define name (.function method)) frame
  let withFields := object.fields.entries.foldl (fun frame (name, value) =>
    frame.define name (.variable value)) withMethods
  withFields.define "this" (.variable this)

/-- Makes the members of a receiver visible in the active frame. The result is the fields that the
method starts with. -/
def seedMethod (this : Value) : Eval (OrderedMap Value) := do
  let engine ← get
  match this.instanceId?.bind (engine.heap.instances[·]?) with
  | none => return .empty
  | some object =>
    set { engine with stack := engine.stack.modifyActive (·.seed object this) }
    return object.fields

/-- Copies the fields that a method changed as locals back to its receiver. A parameter with the
name of a field is not that field. -/
def Engine.writeBack (engine : Engine) (this : Value) (seeded : OrderedMap Value)
    (params : List Param) : Engine :=
  match this.instanceId?, engine.stack.active? with
  | some id, some frame =>
    let heap := seeded.entries.foldl (fun heap (name, before) =>
      if params.any (·.name == name) then heap
      else match frame.names.get? name with
        | some (.variable now) => if now == before then heap else heap.setField id name now
        | _ => heap) engine.heap
    { engine with heap }
  | _, _ => engine

/-- Gives each parameter its argument or its default, which may refer to the parameters before it. -/
def bindParams (eval : Evaluator) (function : ScriptFunction) :
    List (Param × Option Value) → Eval Unit
  | [] => return ()
  | (param, slot) :: rest => do
    let value ← match slot, param.default with
      | some value, _ => pure value
      | none, some default => evaluateAs eval .parameterDefault function.site default
      | none, none => Eval.throwCause (.arguments function.name (.missing param.name))
    modify (·.defineLocal param.name (.variable value) function.site.file)
    bindParams eval function rest

/-- Binds the arguments of a call in its frame and runs the body. -/
def runBody (eval : Evaluator) (function : ScriptFunction) (bound : Bound) : Eval Value := do
  bindParams eval function (function.params.zip bound.slots)
  for (name, value) in bound.extras do
    modify (·.defineLocal name (.variable value) function.site.file)
  runText eval function.site function.body

/-- Runs the body of a method between taking the fields of its receiver and giving them back. -/
def runMethod (eval : Evaluator) (function : ScriptFunction) (bound : Bound) (this : Value) :
    Eval Value := do
  let seeded ← seedMethod this
  Eval.closing (runBody eval function bound) (·.writeBack this seeded function.params)

/-- Runs the body of a function, or of a method if a receiver is given. -/
def runCallee (eval : Evaluator) (function : ScriptFunction) (bound : Bound) :
    Option Value → Eval Value
  | some this => runMethod eval function bound this
  | none => runBody eval function bound

/-- Calls a function, as a method if a receiver is given. The frame and the record of the call are
gone behind it however it ends. What the body returns is handed out, and a `break` or `continue` that
none of its loops took is dropped. -/
def callFunction (eval : Evaluator) (function : ScriptFunction) (args : List Arg)
    (this : Option Value) : Eval Value := do
  let bound ← Eval.ofResult (bindArgs function.name function.params args)
  enterCall function.name
  let value ← Eval.inFrame function.name <| Eval.closing
    (Eval.withFrame (.call function.name function.scope) (runCallee eval function bound this))
    Engine.exitCall
  return value.outcome

/-- Cuts a declaration at its first equals sign, without the blanks around it. -/
def splitDefault (text : List Char) : List Char × Option (List Char) :=
  match Text.cut? ['='] text with
  | some (name, default) => (Text.trim name, some (Text.trim default))
  | none => (text, none)

/-- Reads the parameters that `parts` declare behind those in `known`. -/
def readParams (function : String) (cursor : Cursor) (known : List Param) :
    List (List Char) → Read (List Param)
  | [] => .ok known
  | part :: rest =>
    let (text, default) := splitDefault part
    let name := String.ofList text
    if !Text.isIdentifier text then
      cursor.refuse (.invalidParameter (String.ofList part) function)
    else if known.any (·.name == name) then cursor.refuse (.duplicateParameter name function)
    else readParams function cursor (known ++ [⟨name, default⟩]) rest

/-- Reads the declaration of a function behind its keyword. -/
def readFunction (scope owner : Option String) (cursor : Cursor) :
    Read (ScriptFunction × Cursor) := do
  let (name, named) := cursor.readToken
  if name = "" then named.refuse .missingFunctionName
  let (header, headed) ← named.readBalanced '(' ')'
  let params ← readParams name headed [] (splitTopLevel header ',')
  let start := headed.skipSpaces
  let (body, behind) ← start.readBalanced '{' '}'
  return (⟨name, params, body, start.site, scope, owner⟩, behind)

/-- Declares the function at a cursor. -/
def declareFunction (cursor : Cursor) : Eval (Value × Cursor) := do
  let (function, behind) ← Eval.ofRead (readFunction (← get).activeScope? none cursor)
  modify (·.defineDeclaration function.name (.function function))
  return (.null, behind)

end ScriptEngine

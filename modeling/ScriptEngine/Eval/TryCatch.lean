import ScriptEngine.Eval.Function

/-! Handling of failures within a script. -/

namespace ScriptEngine

/-- The value that a handler gets for a failure: its message, with the trace as a field. -/
def Failure.caught (failure : Failure) : Value :=
  (Value.string failure.message).setField "stack" (.string failure.traceText)

/-- Binds a name of a handler, if there is one. -/
def bindCaught (file : String) (value : Value) : Option String → Eval Unit
  | some name => modify (·.defineLocal name (.variable value) file)
  | none => return ()

/-- Binds the names of a handler to a failure and to its trace. -/
def bindFailure (file : String) (failure : Failure) (names : List String) : Eval Unit := do
  bindCaught file failure.caught names[0]?
  bindCaught file (.string failure.traceText) names[1]?

/-- Runs a body, and a handler if it fails. The calls and frames that the failure left behind are
gone before the handler starts. A request to end cannot be handled. -/
def runGuarded (eval : Evaluator) (site : Site) (body : List Char) (names : List String)
    (handler : List Char) : Eval Value := do
  let before ← get
  match ← Eval.attempt (runText eval site body) with
  | .ok value => return value
  | .error failure =>
    if failure.cause = .interrupted then Eval.throwFailure failure
    modify (·.unwindTo before.stack.depth before.calls.length)
    bindFailure site.file failure names
    runText eval site handler

/-- Runs the `try` statement whose body is at a cursor. -/
def runTry (eval : Evaluator) (cursor : Cursor) : Eval (Value × Cursor) := do
  let (body, next) ← Eval.ofRead cursor.readBody
  let (word, named) := next.readToken
  if word ≠ "catch" then Eval.refuse named .missingCatch
  let (header, headed) ← Eval.ofRead (named.readBalanced '(' ')')
  let names := splitTopLevel header ','
  if let some bad := names.find? (!Text.isIdentifier ·) then
    Eval.refuse headed (.invalidCatchVariable (String.ofList bad))
  let (handler, behind) ← Eval.ofRead headed.readBody
  let value ← runGuarded eval behind.site body (names.map String.ofList) handler
  return (value, behind)

end ScriptEngine

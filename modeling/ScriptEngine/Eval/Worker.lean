import ScriptEngine.Eval.Basic

/-! Workers: expressions that other threads evaluate on a stack of their own over the shared names. -/

namespace ScriptEngine

/-- Launches a worker for the expression at a cursor and yields its number. -/
def runWorker (detached : Bool) (cursor : Cursor) : Eval (Value × Cursor) := do
  let (text, behind) ← Eval.ofRead (cursor.readBalanced '(' ')')
  if (Text.trim text).isEmpty then Eval.refuse behind .missingWorkerExpression
  let (engine, id) := (← get).launch (behind.child text) detached
  set engine
  return (.ofNat id, behind)

/-- Runs the expression of a worker. -/
def Launch.run (eval : Evaluator) (launch : Launch) : Eval Value :=
  Value.returned <$> evaluateAll eval launch.cursor

/-- Takes the result of a worker that is done, and forgets the worker. -/
def takeResult (id : Nat) : Eval Value := do
  let result := (← get).resultOf? id
  modify (·.dropWorker id)
  match result with
  | some (.ok value) => return value
  | some (.error stop) =>
    if stop.interrupts then Eval.note .interrupted
    modify (·.receive stop)
    throw stop
  | none => throw .exhausted

/-- Takes the result of a worker, once it is done. It can be taken once. -/
def joinWorker (id : Nat) : Eval Value := do
  match (← get).joinable? id with
  | none => Eval.throwCause (.unknownSymbol s!"thread {id}")
  | some worker =>
    modify (·.await id)
    if worker.result.isNone then Eval.pause (.result id)
    takeResult id

/-- The milliseconds that a sleeping thread lets pass before it looks for a request to end. -/
def napLength : Nat := 10

/-- Lets so many naps pass. -/
def napTimes : Nat → Eval Unit
  | 0 => pure ()
  | naps + 1 => do
    Eval.checkCancelled
    Eval.pause (.time napLength)
    napTimes naps

/-- Lets a time in milliseconds pass, if there are other threads to use it. -/
def sleep (milliseconds : Nat) : Eval Unit := do
  if !(← get).isAlone then
    napTimes (milliseconds / napLength)
    Eval.checkCancelled
    Eval.pause (.time (milliseconds % napLength))
  Eval.checkCancelled

end ScriptEngine

import ScriptEngine.Engine.State

/-! Evaluations as computations that change an interpreter, may fail, and may pause so that other
threads go on. -/

namespace ScriptEngine

/-- What a thread that pauses waits for. -/
inductive Wait where
  /-- Its next turn. -/
  | turn
  /-- The end of a time in milliseconds. -/
  | time (milliseconds : Nat)
  /-- The result of a worker. -/
  | result (id : Nat)
  /-- The locked region. -/
  | region
  deriving DecidableEq, Repr

/-- How far an evaluation came in one go. A paused one goes on from the interpreter that it is given
then: that of the pause with what the other threads have changed in the meantime. -/
inductive Step (α : Type) where
  | finished (result : Except Stop α) (engine : Engine)
  | paused (wait : Wait) (engine : Engine) (resume : Engine → Step α)

/-- Goes on behind the end of an evaluation, however it ends. -/
def Step.andThen {α β : Type} (next : Except Stop α → Engine → Step β) : Step α → Step β
  | .finished result engine => next result engine
  | .paused wait engine resume => .paused wait engine fun changed => (resume changed).andThen next

/-- A computation that changes an interpreter. The changes stay however it ends. -/
def Eval (α : Type) : Type := Engine → Step α

namespace Eval

/-- Goes on behind a computation, however it ends. -/
@[inline]
def andThen {α β : Type} (body : Eval α) (next : Except Stop α → Eval β) : Eval β :=
  fun engine => (body engine).andThen next

instance : Monad Eval where
  pure value := fun engine => .finished (.ok value) engine
  bind body next := body.andThen fun result =>
    match result with
    | .ok value => next value
    | .error stop => fun engine => .finished (.error stop) engine

instance : MonadStateOf Engine Eval where
  get := fun engine => .finished (.ok engine) engine
  set changed := fun _ => .finished (.ok ()) changed
  modifyGet change := fun engine =>
    let (value, changed) := change engine
    .finished (.ok value) changed

instance : MonadExceptOf Stop Eval where
  throw stop := fun engine => .finished (.error stop) engine
  tryCatch body handler := body.andThen fun result =>
    match result with
    | .ok value => pure value
    | .error stop => handler stop

/-- Ends an evaluation with a failure. -/
def throwFailure {α : Type} (failure : Failure) : Eval α := throw (.failed failure)

/-- Ends an evaluation for a cause. -/
def throwCause {α : Type} (cause : Cause) : Eval α := throw (.failed cause)

/-- Continues with the value of a result, or fails with its failure. -/
def ofResult {α : Type} : Result α → Eval α
  | .ok value => pure value
  | .error failure => throwFailure failure

/-- Continues with what a part outside the interpreter yields, or fails with its failure. -/
def ofHost {α : Type} : Result α → Eval α
  | .ok value => pure value
  | .error failure => do
    modify (·.receive (.failed failure))
    throwFailure failure

/-- Continues with what was read, or fails with the cause that reading stopped for. -/
def ofRead {α : Type} : Read α → Eval α
  | .ok value => pure value
  | .error stopped => throwCause stopped.cause

/-- Makes an entry in the log of the running thread. -/
def note (event : Event) : Eval Unit := modify (·.note event)

/-- Makes an entry in the log of the calls. -/
def noteCall (event : CallEvent) : Eval Unit := modify (·.noteCall event)

/-- Uses a value up as data. That is noted if the value is a control signal. -/
def use (use : Use) (value : Value) : Eval Value := do
  if value.isSignal then modify (·.noteUse use)
  return value

/-- Continues with what was read behind a value, or fails with the cause that reading stopped for,
which then takes the place of the value. -/
def ofReadBehind {α : Type} (value : Value) (read : Read α) : Eval α := do
  if read matches .error _ then let _ ← use .superseded value
  ofRead read

/-- Ends an evaluation for a syntax fault at a cursor. -/
def refuse {α : Type} (cursor : Cursor) (fault : SyntaxFault) : Eval α :=
  throwCause (cursor.fault fault)

/-- Lets other threads go on until what the running one waits for has come. -/
def pause (wait : Wait) : Eval Unit := fun engine => .paused wait engine (pure () : Eval Unit)

/-- Lets other threads take their turn, if there are any. -/
def giveWay : Eval Unit := do
  if !(← get).isAlone then pause .turn

/-- Fails if the host or the script has asked for an end. -/
def checkCancelled : Eval Unit := do
  modify (·.look)
  if (← get).cancelled then
    note .interrupted
    throwCause .interrupted

/-- Runs a computation and, however it ends, changes the interpreter behind it. -/
def closing {α : Type} (body : Eval α) (after : Engine → Engine) : Eval α :=
  body.andThen fun result engine => .finished result (after engine)

/-- Runs a computation and hands out its failure in place of failing. -/
def attempt {α : Type} (body : Eval α) : Eval (Except Failure α) :=
  body.andThen fun result =>
    match result with
    | .ok value => pure (.ok value)
    | .error (.failed failure) => pure (.error failure)
    | .error .exhausted => throw .exhausted

/-- Runs a computation and notes in its failure that it has left a call of `function`. -/
def inFrame {α : Type} (function : String) (body : Eval α) : Eval α :=
  body.andThen fun result =>
    match result with
    | .ok value => do
      noteCall (.left function)
      return value
    | .error (.failed failure) => do
      noteCall (.unwound function)
      throwFailure (failure.inFrame function)
    | .error .exhausted => throw .exhausted

/-- Runs a computation with a frame on the stack that is gone behind it. -/
def withFrame {α : Type} (kind : FrameKind) (body : Eval α) : Eval α := do
  let (stack, id) := (← get).stack.push kind
  modify fun engine => { engine with stack }
  closing body fun engine => { engine with stack := engine.stack.pop id }

/-- Runs a computation in the region that only one thread may be in. -/
def inRegion {α : Type} (body : Eval α) : Eval α := do
  let engine ← get
  if !engine.admits engine.thread then pause .region
  modify (·.enterRegion)
  closing body (·.leaveRegion)

end Eval

end ScriptEngine

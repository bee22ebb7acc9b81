import ScriptEngine.Eval.Evaluator

/-! Interpreters with all their threads, and what a host does with them. Threads run side by side in
a simulated time: sleeping and the passes of loops take time, all else takes none, and of the threads
that can go on the one that is least advanced does. -/

namespace ScriptEngine

/-- A thread between two turns. -/
structure Thread (α : Type) where
  id : Nat
  stack : ScopeStack
  calls : List String
  /-- Its log, the latest entry first. -/
  events : List Event
  /-- The log of its calls, the latest entry first. -/
  callLog : List CallEvent
  /-- The microsecond from which on it can take its next turn. -/
  readyAt : Nat
  wait : Wait
  resume : Engine → Step α

/-- An interpreter between two requests of its host. -/
structure Interpreter where
  engine : Engine
  /-- The workers that have started and are not done. -/
  threads : List (Thread Value) := []
  /-- The current time in microseconds. -/
  now : Nat := 0

/-- The microseconds that a pass of a loop takes. -/
def passTime : Nat := 2

/-- The microseconds until a launched worker starts. -/
def startTime : Nat := 50

/-- The microseconds that at least go by before a wait can be over. -/
def Wait.duration : Wait → Nat
  | .turn => passTime
  | .time milliseconds => 1000 * milliseconds
  | .result _ => 0
  | .region => 0

/-- Whether what a thread waits for has come, apart from time. -/
def Thread.canGoOn {α : Type} (engine : Engine) (thread : Thread α) : Bool :=
  match thread.wait with
  | .turn => true
  | .time _ => true
  | .result id => (engine.resultOf? id).isSome
  | .region => engine.admits thread.id

/-- Makes a thread the running one. -/
def Thread.enter {α : Type} (thread : Thread α) (engine : Engine) : Engine :=
  { engine with
    thread := thread.id, stack := thread.stack, calls := thread.calls, events := thread.events
    callLog := thread.callLog }

/-- Of two threads the one that can take its turn earlier, and the first if both can. -/
def earlier {α : Type} (left right : Thread α) : Thread α :=
  if left.readyAt ≤ right.readyAt then left else right

namespace Interpreter

/-- A new interpreter. -/
def new (config : Config) (files : FileTree) : Interpreter := ⟨Engine.new config files, [], 0⟩

/-- Changes the state that the threads share. -/
def modify (interpreter : Interpreter) (change : Engine → Engine) : Interpreter :=
  { interpreter with engine := change interpreter.engine }

/-- Makes threads of the workers that were launched. -/
def startLaunched (interpreter : Interpreter) : Interpreter :=
  let threads := interpreter.engine.launched.map fun launch =>
    ⟨launch.id, launch.stack, [], [], [], interpreter.now + startTime, .turn, launch.run hostEvaluator⟩
  { interpreter with
    engine := { interpreter.engine with launched := [] }
    threads := interpreter.threads ++ threads }

/-- Gives a thread its turn: how far it comes, and the interpreter behind it. -/
def takeTurn {α : Type} (interpreter : Interpreter) (thread : Thread α) :
    (Except Stop α ⊕ Thread α) × Interpreter :=
  let now := max interpreter.now thread.readyAt
  match thread.resume (thread.enter interpreter.engine) with
  | .finished result engine =>
    (.inl result, { interpreter with engine, now }.startLaunched)
  | .paused wait engine resume =>
    (.inr ⟨thread.id, engine.stack, engine.calls, engine.events, engine.callLog, now + wait.duration,
        wait, resume⟩,
      { interpreter with engine, now }.startLaunched)

/-- The worker whose turn comes before that of the host's thread, if there is one. -/
def nextThread? {α : Type} (interpreter : Interpreter) (main : Thread α) : Option (Thread Value) :=
  let engine := interpreter.engine
  let comesFirst := fun (worker : Thread Value) =>
    worker.canGoOn engine && (!main.canGoOn engine || decide (worker.readyAt < main.readyAt))
  match interpreter.threads.filter comesFirst with
  | [] => none
  | first :: others => some (others.foldl earlier first)

/-- Gives a worker its turn. -/
def advance (interpreter : Interpreter) (worker : Thread Value) : Interpreter :=
  match interpreter.takeTurn worker with
  | (.inl result, behind) =>
    { behind with
      engine := behind.engine.finishWorker worker.id result
      threads := behind.threads.filter (·.id != worker.id) }
  | (.inr paused, behind) =>
    { behind with threads := behind.threads.map fun thread =>
        if thread.id = worker.id then paused else thread }

/-- Gives up: no thread can go on, or there are no turns left. -/
def giveUp {α : Type} (interpreter : Interpreter) (main : Thread α) :
    Except Stop α × Interpreter :=
  (.error .exhausted, interpreter.modify main.enter)

/-- Lets the threads take so many turns, until that of the host is done. -/
def drive {α : Type} : Nat → Interpreter → Thread α → Except Stop α × Interpreter
  | 0, interpreter, main => interpreter.giveUp main
  | turns + 1, interpreter, main =>
    match interpreter.nextThread? main with
    | some worker => drive turns (interpreter.advance worker) main
    | none =>
      if main.canGoOn interpreter.engine then
        match interpreter.takeTurn main with
        | (.inl result, behind) => (result, behind)
        | (.inr paused, behind) => drive turns behind paused
      else interpreter.giveUp main

/-- The number of turns that hosts let threads take for one request. -/
def turnLimit : Nat := 1_000_000_000

/-- Runs a computation in the host's own thread. -/
def run {α : Type} (interpreter : Interpreter) (body : Eval α) : Except Stop α × Interpreter :=
  let engine := interpreter.engine
  drive turnLimit interpreter
    ⟨engine.thread, engine.stack, engine.calls, engine.events, engine.callLog, interpreter.now, .turn,
      body⟩

/-- Runs a script under a file name. -/
def process (interpreter : Interpreter) (source file : String) (isMain : Bool) :
    Except Stop Value × Interpreter :=
  interpreter.run (runScript hostEvaluator source file isMain)

/-- Reasons for which a script file does not run to its end. -/
inductive FileFailure where
  | unreadable (path : String) (fault : FileFault)
  | stopped (path : String) (stop : Stop)

/-- The wording of a failure to run a file with all that lies behind it, if the script came to an end
at all. -/
def FileFailure.message? : FileFailure → Option String
  | .unreadable path fault => some (s!"failed to read script {path}: " ++ fault.describe)
  | .stopped path (.failed failure) =>
    some (String.intercalate ": " (s!"script {path} failed" :: failure.chain))
  | .stopped _ .exhausted => none

/-- Runs a main script from a file. -/
def processFile (interpreter : Interpreter) (path : String) :
    Except FileFailure Value × Interpreter :=
  match interpreter.engine.files.read path with
  | .error fault => (.error (.unreadable path fault), interpreter)
  | .ok source =>
    match interpreter.process source path true with
    | (.ok value, final) => (.ok value, final)
    | (.error stop, final) => (.error (.stopped path stop), final)

/-- Evaluates a source as one expression. -/
def evaluateSource (interpreter : Interpreter) (source file : String) :
    Except Stop Value × Interpreter :=
  interpreter.run do evaluateAll hostEvaluator (← Eval.ofResult (Cursor.ofSource source file))

/-- Writes a value to a place as a script in a file would. -/
def storeAt (interpreter : Interpreter) (file : String) (place : Place) (value : Value) :
    Except Stop Unit × Interpreter :=
  interpreter.run (store hostEvaluator ⟨file, 1⟩ place value)

/-- Reads the value at a place as a script in a file would. -/
def loadAt (interpreter : Interpreter) (file : String) (place : Place) :
    Except Stop Value × Interpreter :=
  interpreter.run (load hostEvaluator ⟨file, 1⟩ place)

/-- Takes the result of a worker, once it is done. -/
def join (interpreter : Interpreter) (id : Nat) : Except Stop Value × Interpreter :=
  interpreter.run (joinWorker id)

end Interpreter

namespace Engine

/-- Installs a native function of the host. -/
def registerNative (engine : Engine) (name : String) (arity : Option Nat)
    (run : CallSite → List Value → Result Value) : Engine :=
  engine.register name (.native ⟨name, arity, .host run⟩) true

/-- Installs a type of host objects. -/
def registerType (engine : Engine) (name : String) (type : HostType) : Engine :=
  { engine with hostTypes := engine.hostTypes.insert name type }

end Engine

end ScriptEngine

import ScriptEngine.Config
import ScriptEngine.FileTree
import ScriptEngine.Heap
import ScriptEngine.HostType
import ScriptEngine.Output
import ScriptEngine.Scope.Stack
import ScriptEngine.Scope.Symbols
import ScriptEngine.Source.Cursor

/-! The state of an interpreter, and how names are resolved and bound in it. -/

namespace ScriptEngine

/-- Why an evaluation ends without a value. -/
inductive Stop where
  /-- The script failed. -/
  | failed (failure : Failure)
  /-- The evaluation went beyond the bounds on its nesting or its length. -/
  | exhausted
  deriving DecidableEq, Repr

/-- Whether an evaluation ends because an end was asked for. -/
def Stop.interrupts : Stop → Bool
  | .failed failure => failure.cause = .interrupted
  | .exhausted => false

/-- What the value of an expression or of a body becomes where it is used up. A control signal goes
no further than such a use. -/
inductive Use where
  /-- The condition of a branch or of a loop. -/
  | condition
  /-- What stands beside a binary operator or behind a sign. -/
  | operand
  /-- What stands in front of an index, a property or a method. -/
  | receiver
  | index
  /-- An element of an array literal. -/
  | element
  /-- A value in a map literal. -/
  | entry
  /-- The first value of a variable. -/
  | initializer
  | argument
  /-- The default of a parameter. -/
  | parameterDefault
  /-- The value that a field starts with. -/
  | fieldDefault
  /-- The number of an entry of an enumeration. -/
  | enumEntry
  /-- The subject of a `switch`. -/
  | subject
  /-- The value behind a `case`. -/
  | label
  /-- What a loop takes its elements from. -/
  | source
  /-- The code of a `quit`. -/
  | exitCode
  | thrown
  /-- What an action combines with its target. -/
  | assigned
  /-- A property read on the way to the current value of a target. -/
  | current
  /-- A property read on the way to a target that is written. -/
  | path
  /-- The operand of a `return`, if it is a signal other than that to quit. -/
  | returned
  /-- The first or the last part of the header of a counted loop, whose value is dropped. -/
  | aside
  /-- The body of a constructor, whose value is dropped. -/
  | construction
  /-- A setter, whose value is dropped. -/
  | setter
  /-- What a syntax fault follows. -/
  | superseded
  deriving DecidableEq, Repr

/-- Whether a use can put the value into a variable, a collection or a field. -/
def Use.stores : Use → Bool
  | .element => true
  | .entry => true
  | .initializer => true
  | .argument => true
  | .parameterDefault => true
  | .fieldDefault => true
  | .path => true
  | _ => false

/-- An entry in the log of a thread. -/
inductive Event where
  /-- A statement starts. -/
  | statement (site : Site)
  /-- A `quit` statement has been executed. -/
  | quit (code : Int)
  /-- A control signal was used up as data. -/
  | used (use : Use)
  /-- A keyword was run as an operand; the cursor is behind it. -/
  | embedded (keyword : Keyword) (cursor : Cursor)
  /-- The thread ends because an end was asked for. -/
  | interrupted

/-- An entry in the log of the calls of a thread. -/
inductive CallEvent where
  /-- A call is recorded. -/
  | entered (function : String)
  /-- The innermost call has returned. -/
  | left (function : String)
  /-- A failure has left the innermost call. -/
  | unwound (function : String)
  /-- A failure goes no further. -/
  | handled
  /-- A failure comes in that has left calls elsewhere. -/
  | foreign
  deriving DecidableEq, Repr

/-- What any of the threads comes to. -/
inductive Milestone where
  /-- A statement starts. -/
  | statement (site : Site)
  /-- A pass of a loop starts. -/
  | pass
  /-- The host or a script asks for an end. -/
  | request
  /-- A request to end is lifted. -/
  | lifted
  deriving DecidableEq, Repr

/-- A worker that is not done, or whose result nobody has taken. -/
structure Worker where
  id : Nat
  /-- Whether nobody may take its result. -/
  detached : Bool
  /-- Whether a thread has come to take its result. -/
  awaited : Bool := false
  result : Option (Except Stop Value) := none

/-- A worker that has not started yet: its expression, and the stack that it starts with. -/
structure Launch where
  id : Nat
  cursor : Cursor
  stack : ScopeStack

/-- The hold of a thread on the region that only one thread may be in. -/
structure Hold where
  thread : Nat
  /-- The number of lock bodies of the thread that are open. -/
  depth : Nat
  deriving DecidableEq, Repr

/-- An interpreter at rest or in the middle of an evaluation. The thread number, the stack, the calls
and the logs belong to the thread that is running; all else is shared with the other threads. -/
structure Engine where
  config : Config := {}
  symbols : SymbolTable := {}
  heap : Heap := {}
  hostTypes : OrderedMap HostType := .empty
  compiler : Option Compiler := none
  files : FileTree := {}
  /-- What was printed and reported, the last piece first. -/
  output : List OutputChunk := []
  /-- Whether the host or a script has asked for an end. -/
  cancelled : Bool := false
  /-- How often threads still look for a request to end before one of the host comes in, if it has one
  on its way. -/
  hostRequest : Option Nat := none
  /-- What the threads have come to, the latest first. No evaluation depends on it. -/
  milestones : List Milestone := []
  mainFile : Option String := none
  workers : List Worker := []
  /-- The workers that have not started, in the order of their launch. -/
  launched : List Launch := []
  /-- The last number that was given to a worker. -/
  lastWorker : Nat := 0
  /-- The uses of control signals as data by any thread, the latest first. -/
  signalUses : List Use := []
  /-- The hold on the locked region, while a thread is in it. -/
  hold : Option Hold := none
  /-- The number of the running thread, which is 0 for the host's own and else that of its worker. -/
  thread : Nat := 0
  stack : ScopeStack := {}
  /-- The names of the active calls, the innermost first. -/
  calls : List String := []
  /-- The log of the running thread, the latest entry first. No evaluation depends on it. -/
  events : List Event := []
  /-- The log of its calls, the latest entry first. No evaluation depends on it. -/
  callLog : List CallEvent := []

/-- The scope that an assignment writes to. -/
inductive Target where
  | frame
  | namespaced (scope name : String)
  | fileLocal
  | global
  deriving DecidableEq, Repr

namespace Engine

/-- The binding of a name in a frame, or in the namespace that the frame belongs to. -/
def inFrame? (engine : Engine) (frame : Frame) (name : String) : Option Handler :=
  match frame.kind with
  | .namespaceBlock scope => engine.symbols.namespaced? scope name
  | .call _ (some scope) => (frame.names.get? name).or (engine.symbols.namespaced? scope name)
  | _ => frame.names.get? name

/-- What a name stands for in a file: a member of a namespace if it is qualified, and otherwise the
first binding in the active frame, the file, the globals, the natives and the keywords. -/
def resolve? (engine : Engine) (name file : String) : Option Handler :=
  if name.toList.contains '.' then engine.symbols.qualified? name
  else
    (engine.stack.active?.bind fun frame => engine.inFrame? frame name)
      |>.or (engine.symbols.fileLocal? file name)
      |>.or (engine.symbols.globals.get? name)
      |>.or (engine.symbols.natives.get? name)
      |>.or ((Keyword.ofName? name).map .keyword)

/-- The value of a variable as a script in a file sees it. -/
def valueOf? (engine : Engine) (name file : String) : Option Value :=
  (engine.resolve? name file).bind Handler.value?

/-- The namespace that definitions made now belong to. -/
def activeScope? (engine : Engine) : Option String :=
  match engine.stack.activeKind? with
  | some (.namespaceBlock scope) => some scope
  | some (.call _ scope) => scope
  | _ => none

/-- Binds a name in the active frame or its namespace; `outermost` binds it where there is none. -/
def defineIn (outermost : SymbolTable → SymbolTable) (engine : Engine) (name : String)
    (handler : Handler) : Engine :=
  match engine.stack.activeKind? with
  | some (.namespaceBlock scope) =>
    { engine with symbols := engine.symbols.setNamespaced scope name handler }
  | some _ => { engine with stack := engine.stack.define name handler }
  | none => { engine with symbols := outermost engine.symbols }

/-- Binds a local name: outside all frames, in the scope of the file. -/
def defineLocal (engine : Engine) (name : String) (handler : Handler) (file : String) : Engine :=
  engine.defineIn (·.setFileLocal file name handler) name handler

/-- Binds the name of a declaration: outside all frames, as a global. -/
def defineDeclaration (engine : Engine) (name : String) (handler : Handler) : Engine :=
  engine.defineIn (·.setGlobal name handler) name handler

/-- The target in the active frame or its namespace where a name is bound already. -/
def boundInFrame? (engine : Engine) (frame : Frame) (name : String) : Option Target :=
  let inScope := fun scope =>
    if (engine.symbols.namespaced? scope name).isSome then some (.namespaced scope name) else none
  match frame.kind with
  | .namespaceBlock scope => inScope scope
  | .call _ scope =>
    if frame.names.contains name then some .frame else scope.bind inScope
  | .thread => if frame.names.contains name then some .frame else none

/-- The target for a name that is not bound anywhere. -/
def newTarget (engine : Engine) (name : String) : Target :=
  match engine.stack.activeKind? with
  | some (.namespaceBlock scope) => .namespaced scope name
  | some _ => .frame
  | none => .global

/-- Where an assignment to a name goes: to the nearest existing binding, else to a new one. -/
def target (engine : Engine) (name file : String) : Target :=
  match SymbolTable.splitQualified? name with
  | some (scope, member) => .namespaced scope member
  | none =>
    match engine.stack.active?.bind fun frame => engine.boundInFrame? frame name with
    | some target => target
    | none =>
      if (engine.symbols.fileLocal? file name).isSome then .fileLocal
      else if (engine.symbols.globals.get? name).isSome then .global
      else engine.newTarget name

/-- The binding at a target. -/
def at? (engine : Engine) (name file : String) : Target → Option Handler
  | .frame => engine.stack.active?.bind (·.names.get? name)
  | .namespaced scope member => engine.symbols.namespaced? scope member
  | .fileLocal => engine.symbols.fileLocal? file name
  | .global => engine.symbols.globals.get? name

/-- Binds a name at a target. -/
def bindAt (engine : Engine) (name file : String) (handler : Handler) : Target → Engine
  | .frame => { engine with stack := engine.stack.define name handler }
  | .namespaced scope member =>
    { engine with symbols := engine.symbols.setNamespaced scope member handler }
  | .fileLocal => { engine with symbols := engine.symbols.setFileLocal file name handler }
  | .global => { engine with symbols := engine.symbols.setGlobal name handler }

/-- Assigns to a name. -/
def assign (engine : Engine) (name : String) (handler : Handler) (file : String) : Engine :=
  engine.bindAt name file handler (engine.target name file)

/-- Changes the variable that an assignment would write to, in place: what a change has done until it
fails stays. A new variable starts as null, and is only made if the change succeeds. -/
def updateVariable (engine : Engine) (name file : String) (change : Value → Value × Result Unit) :
    Engine × Result Unit :=
  let target := engine.target name file
  match engine.at? name file target with
  | some (.variable value) =>
    let (changed, outcome) := change value
    (engine.bindAt name file (.variable changed) target, outcome)
  | some other => (engine, fail (.typeMismatch .variable other.capability.describe))
  | none =>
    match change .null with
    | (changed, .ok ()) => (engine.bindAt name file (.variable changed) target, .ok ())
    | (_, .error failure) => (engine, .error failure)

/-- Makes an entry in the log of the running thread. -/
def note (engine : Engine) (event : Event) : Engine := { engine with events := event :: engine.events }

/-- Makes an entry in the log of the calls. -/
def noteCall (engine : Engine) (event : CallEvent) : Engine :=
  { engine with callLog := event :: engine.callLog }

/-- Notes that an end has come in that has left calls elsewhere, if it has. -/
def receive (engine : Engine) : Stop → Engine
  | .failed failure => if failure.trace.isEmpty then engine else engine.noteCall .foreign
  | .exhausted => engine

/-- Notes that a control signal was used up as data. -/
def noteUse (engine : Engine) (use : Use) : Engine :=
  { engine.note (.used use) with signalUses := use :: engine.signalUses }

/-- Notes that a statement starts. -/
def startStatement (engine : Engine) (site : Site) : Engine :=
  { engine.note (.statement site) with milestones := .statement site :: engine.milestones }

/-- Notes that a pass of a loop starts. -/
def startPass (engine : Engine) : Engine := { engine with milestones := .pass :: engine.milestones }

/-- Asks all evaluations to end. -/
def cancel (engine : Engine) : Engine :=
  { engine with cancelled := true, milestones := .request :: engine.milestones }

/-- Lifts a request to end. -/
def resetCancel (engine : Engine) : Engine :=
  { engine with cancelled := false, milestones := .lifted :: engine.milestones }

/-- Starts a main script, which lifts an earlier request to end. -/
def startMain (engine : Engine) (file : String) : Engine :=
  { engine.resetCancel with mainFile := some file }

/-- Looks for a request to end, which brings in that of the host once it is due. -/
def look (engine : Engine) : Engine :=
  match engine.hostRequest with
  | none => engine
  | some 0 => { engine.cancel with hostRequest := none }
  | some (looks + 1) => { engine with hostRequest := some looks }

/-- Appends a piece of output. -/
def emit (engine : Engine) (text : String) (isDiagnostic : Bool) : Engine :=
  { engine with output := ⟨text, isDiagnostic⟩ :: engine.output }

/-- Prints text. -/
def write (engine : Engine) (text : String) : Engine := engine.emit text false

/-- Reports to the host. -/
def report (engine : Engine) (text : String) : Engine := engine.emit text true

/-- The name of the report that a name was bound before. -/
def replacementWarning (name : String) : String :=
  s!"warning: '{name}' was already registered and is replaced"

/-- Installs a handler as a native or as a global, and reports if it replaces another. -/
def register (engine : Engine) (name : String) (handler : Handler) (isNative : Bool) : Engine :=
  let symbols := engine.symbols
  let (before, after) :=
    if isNative then (symbols.natives.get? name, symbols.setNative name handler)
    else (symbols.globals.get? name, symbols.setGlobal name handler)
  let changed := { engine with symbols := after }
  if before.isSome then changed.report (replacementWarning name) else changed

/-- Installs an action. -/
def registerAction (engine : Engine) (action : Action) : Engine :=
  { engine with symbols := engine.symbols.setAction action }

/-- Whether the running thread is the host's own and no worker is at work. -/
def isAlone (engine : Engine) : Bool :=
  engine.thread == 0 && engine.workers.all (·.result.isSome)

/-- Adds a worker for an expression. It gets a stack of its own that starts with the active names. -/
def launch (engine : Engine) (cursor : Cursor) (detached : Bool) : Engine × Nat :=
  let id := engine.lastWorker + 1
  ({ engine with
      lastWorker := id
      workers := ⟨id, detached, false, none⟩ :: engine.workers
      launched := engine.launched ++ [⟨id, cursor, engine.stack.fork⟩] }, id)

/-- The worker with a number whose result can still be taken. -/
def joinable? (engine : Engine) (id : Nat) : Option Worker :=
  engine.workers.find? fun worker => worker.id == id && !worker.detached && !worker.awaited

/-- Notes that a thread has come for the result of a worker. -/
def await (engine : Engine) (id : Nat) : Engine :=
  { engine with workers := engine.workers.map fun worker =>
      if worker.id = id then { worker with awaited := true } else worker }

/-- The result of a worker that is done. -/
def resultOf? (engine : Engine) (id : Nat) : Option (Except Stop Value) :=
  (engine.workers.find? (·.id == id)).bind (·.result)

/-- Forgets a worker. -/
def dropWorker (engine : Engine) (id : Nat) : Engine :=
  { engine with workers := engine.workers.filter (·.id != id) }

/-- What is reported when a detached worker fails. -/
def workerReport (id : Nat) (failure : Failure) : String :=
  s!"thread {id} failed: " ++ failure.message

/-- Records that a worker is done. A detached one is only heard of when it fails. -/
def finishWorker (engine : Engine) (id : Nat) (result : Except Stop Value) : Engine :=
  if engine.workers.any fun worker => worker.id == id && worker.detached then
    let rest := engine.dropWorker id
    match result with
    | .error (.failed failure) => rest.report (workerReport id failure)
    | _ => rest
  else
    { engine with workers := engine.workers.map fun worker =>
        if worker.id = id then { worker with result := some result } else worker }

/-- Whether a thread may enter the locked region: it is free, or the thread is in it already. -/
def admits (engine : Engine) (thread : Nat) : Bool :=
  match engine.hold with
  | some hold => hold.thread == thread
  | none => true

/-- Lets the running thread into the locked region. -/
def enterRegion (engine : Engine) : Engine :=
  let depth := (engine.hold.map (·.depth)).getD 0
  { engine with hold := some ⟨engine.thread, depth + 1⟩ }

/-- Takes the running thread out of the innermost lock body that it is in. -/
def leaveRegion (engine : Engine) : Engine :=
  { engine with hold := engine.hold.bind fun hold =>
      if hold.depth ≤ 1 then none else some { hold with depth := hold.depth - 1 } }

/-- Writes a variable as a script in a file would: by `var` if it is to be local, else by an
assignment. -/
def setVariable (engine : Engine) (name : String) (value : Value) (file : String)
    (isLocal : Bool) : Engine :=
  if isLocal then engine.defineLocal name (.variable value) file
  else engine.assign name (.variable value) file

end Engine

end ScriptEngine

import ScriptEngine.Handler

/-! The stack of frames that hold call-local names. -/

namespace ScriptEngine

/-- Why a frame is on the stack. -/
inductive FrameKind where
  /-- A call, with the namespace its callee was defined in. -/
  | call (function : String) (scope : Option String)
  /-- A namespace block, whose definitions go to the namespace. -/
  | namespaceBlock (name : String)
  /-- The base of a worker. -/
  | thread
  deriving DecidableEq, Repr

/-- The name of a frame as traces show it. -/
def FrameKind.name : FrameKind → String
  | .call function _ => function
  | .namespaceBlock name => name
  | .thread => "thread"

/-- A call-local scope with its identifier. -/
structure Frame where
  id : Nat
  kind : FrameKind
  names : OrderedMap Handler := .empty

/-- Binds a name, replacing an earlier binding. -/
def Frame.define (frame : Frame) (name : String) (handler : Handler) : Frame :=
  { frame with names := frame.names.insert name handler }

/-- Frames, which are removed by identifier rather than in order. -/
structure ScopeStack where
  /-- The frames from the innermost one outwards. -/
  frames : List Frame := []
  /-- The last identifier that was given to a frame. -/
  lastId : Nat := 0
  /-- Up to this depth frames take no part in the resolution of names. -/
  threshold : Nat := 0

namespace ScopeStack

/-- The number of frames. -/
def depth (stack : ScopeStack) : Nat := stack.frames.length

/-- Adds an innermost frame, with a new identifier. -/
def push (stack : ScopeStack) (kind : FrameKind) : ScopeStack × Nat :=
  let id := stack.lastId + 1
  ({ stack with frames := { id, kind } :: stack.frames, lastId := id }, id)

/-- The frame with an identifier. -/
def find? (stack : ScopeStack) (id : Nat) : Option Frame := stack.frames.find? (·.id == id)

/-- Removes the frame with an identifier, wherever it is. -/
def pop (stack : ScopeStack) (id : Nat) : ScopeStack :=
  { stack with frames := stack.frames.eraseP (·.id == id) }

/-- Removes the innermost frames until only `depth` are left. -/
def truncate (stack : ScopeStack) (depth : Nat) : ScopeStack :=
  { stack with frames := stack.frames.drop (stack.frames.length - depth) }

/-- The innermost frame, if it takes part in the resolution of names. -/
def active? (stack : ScopeStack) : Option Frame :=
  if stack.threshold < stack.depth then stack.frames.head? else none

/-- The kind of the active frame. -/
def activeKind? (stack : ScopeStack) : Option FrameKind := stack.active?.map (·.kind)

/-- Changes the innermost frame if it takes part in the resolution of names. -/
def modifyActive (stack : ScopeStack) (change : Frame → Frame) : ScopeStack :=
  match stack.frames with
  | frame :: outer =>
    if stack.threshold < stack.depth then { stack with frames := change frame :: outer } else stack
  | [] => stack

/-- Binds a name in the active frame. -/
def define (stack : ScopeStack) (name : String) (handler : Handler) : ScopeStack :=
  stack.modifyActive (·.define name handler)

/-- The stack of a worker: one frame with a copy of the active frame's names. -/
def fork (stack : ScopeStack) : ScopeStack :=
  let names := (stack.active?.map (·.names)).getD .empty
  { frames := [⟨stack.lastId + 1, .thread, names⟩], lastId := stack.lastId + 1 }

end ScopeStack

end ScriptEngine

import ScriptEngine.Json

/-! The settings of an interpreter. -/

namespace ScriptEngine

/-- Limits of an interpreter and of every worker that it launches. -/
structure Config where
  /-- The number of passes that a single loop may run. -/
  maxLoopIterations : Nat := 262144
  /-- The number of calls that may be active at once. -/
  maxCallDepth : Nat := 256
  /-- Whether hosts that follow execution are told of each statement. -/
  trace : Bool := false
  /-- The native stack size of a worker in bytes. -/
  workerStackSize : Nat := 8388608
  deriving DecidableEq, Repr

namespace Config

/-- A setting given in JSON. -/
inductive Setting where
  | maxLoopIterations
  | maxCallDepth
  | trace
  | workerStackSize
  deriving DecidableEq, Repr

/-- The settings in the order in which a JSON array gives them. -/
def settings : List Setting := [.maxLoopIterations, .maxCallDepth, .trace, .workerStackSize]

/-- The JSON name of a setting. -/
def Setting.name : Setting → String
  | .maxLoopIterations => "max_loop_iterations"
  | .maxCallDepth => "max_call_depth"
  | .trace => "trace"
  | .workerStackSize => "worker_stack_size"

/-- A JSON number that fits into 64 bits without a sign. -/
def count? : Json → Option Nat
  | .natural number => if number < UInt64.size then some number else none
  | _ => none

/-- Changes one setting to a JSON value of its type. -/
def set? (config : Config) (setting : Setting) (value : Json) : Option Config :=
  match setting, value with
  | .trace, .bool holds => some { config with trace := holds }
  | .trace, _ => none
  | .maxLoopIterations, value => (count? value).map ({ config with maxLoopIterations := · })
  | .maxCallDepth, value => (count? value).map ({ config with maxCallDepth := · })
  | .workerStackSize, value => (count? value).map ({ config with workerStackSize := · })

/-- Changes the settings that the members of a JSON object name, `seen` having been given already.
Other members are ignored; none may be given twice. -/
def ofMembers? (config : Config) (seen : List Setting) :
    List (Option String × Json) → Option Config
  | [] => some config
  | (none, _) :: _ => none
  | (some name, value) :: rest =>
    match settings.find? (·.name == name) with
    | none => ofMembers? config seen rest
    | some setting =>
      if seen.contains setting then none
      else (config.set? setting value).bind (ofMembers? · (setting :: seen) rest)

/-- Changes settings in order; there may be fewer values than settings, but not more. -/
def ofItems? (config : Config) : List Setting → List Json → Option Config
  | _, [] => some config
  | [], _ :: _ => none
  | setting :: settings, value :: rest => (config.set? setting value).bind (ofItems? · settings rest)

/-- The configuration that a JSON text gives; what it leaves out keeps its default. -/
def ofJson? (text : String) : Option Config :=
  match Json.ofText? text with
  | some (.object members) => ofMembers? {} [] members
  | some (.array items) => ofItems? {} settings items
  | _ => none

end Config

end ScriptEngine

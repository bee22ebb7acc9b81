import ScriptEngine.Eval.Function
import ScriptEngine.Eval.Native
import ScriptEngine.Eval.Place

/-! Properties and methods of values, and reading and writing of places through them. -/

namespace ScriptEngine

/-- The host object that a value is, with its type. -/
def Value.foreign? (value : Value) : Option (String × Nat) :=
  match value.data with
  | .object ⟨typeTag, .foreign id⟩ => some (typeTag, id)
  | _ => none

/-- A property of a host type. -/
def Engine.hostProperty? (engine : Engine) (typeTag name : String) : Option HostProperty :=
  (engine.hostTypes.get? typeTag).bind (·.properties.get? name)

/-- A method of a host type for a number of arguments. -/
def Engine.hostMethod? (engine : Engine) (typeTag name : String) (count : Nat) :
    Option (Value → List Value → Result (Value × Value)) :=
  (engine.hostTypes.get? typeTag).bind fun type =>
    Overload.select? ((type.methods.get? name).getD []) count

/-- Runs an accessor on a receiver, with the assigned value if there is one. An expression sees them
as `this` and `value`. -/
def runAccessor (eval : Evaluator) (site : Site) (receiver : Value) (accessor : Accessor)
    (assigned : Option Value) : Eval Value := do
  match accessor with
  | .function name =>
    let args := receiver :: assigned.toList
    match (← get).resolve? name site.file with
    | some (.function function) => callFunction eval function (args.map .positional) none
    | some (.native native) => callNative eval site native args
    | _ => Eval.throwCause (.unknownSymbol name)
  | .expression text =>
    Eval.withFrame (.call "property" none) do
      modify fun engine =>
        let stack := engine.stack.define "this" (.variable receiver)
        { engine with stack := stack.define "value" (.variable (assigned.getD .undefined)) }
      evaluateText eval site text.toList

/-- The member of a value that is stored under a name, if there is one. -/
def Engine.member? (engine : Engine) (value : Value) (name : String) : Option Value :=
  match value.data with
  | .object ⟨_, .scripted id⟩ => (engine.heap.fields id).get? name
  | .enumeration enumeration => (enumeration.valueOf? name).map .ofInt
  | .collection collection => collection.getKey? name
  | _ => none

/-- Reads a stored member of a value, or else one of the properties that all values have. -/
def Engine.plainProperty (engine : Engine) (value : Value) (name : String) : Result Value :=
  match (engine.member? value name).or (value.builtinProperty? name) with
  | some found => .ok found
  | none => fail (.unknownSymbol (value.typeName ++ "." ++ name))

/-- Reads a property: a computed one, an ad-hoc field, what the object, enumeration or map holds
under the name, and last what all values have. -/
def getProperty (eval : Evaluator) (site : Site) (value : Value) (name : String) : Eval Value := do
  match value.getter? name, value.field? name with
  | some accessor, _ => runAccessor eval site value accessor none
  | none, some field => return field
  | none, none =>
    let engine ← get
    let host := value.foreign?.bind fun (typeTag, id) =>
      (engine.hostProperty? typeTag name).map fun property => property.get (engine.heap.state id)
    match host with
    | some result => Eval.ofHost result
    | none => Eval.ofResult (engine.plainProperty value name)

/-- Reads the current value at a place. -/
def loadSegments (eval : Evaluator) (site : Site) (value : Value) : List Segment → Eval Value
  | [] => return value
  | .index index :: rest => do
    loadSegments eval site (← Eval.ofResult (value.index index)) rest
  | .property name :: rest => do
    loadSegments eval site (← Eval.use .current (← getProperty eval site value name)) rest

/-- Reads the current value at a place. -/
def load (eval : Evaluator) (site : Site) (place : Place) : Eval Value := do
  match (← get).valueOf? place.name site.file with
  | some value => loadSegments eval site value place.segments
  | none => Eval.throwCause (.unknownSymbol place.name)

/-- Writes a property of a value: the value behind the write. Objects keep their place and change
elsewhere. -/
def setProperty (eval : Evaluator) (site : Site) (value : Value) (name : String)
    (content : Value) : Eval Value := do
  match value.setter? name with
  | some accessor =>
    let _ ← Eval.use .setter (← runAccessor eval site value accessor (some content))
    return value
  | none =>
    let engine ← get
    match value.data with
    | .object ⟨_, .scripted id⟩ =>
      set { engine with heap := engine.heap.setField id name content }
      return value
    | .object ⟨typeTag, .foreign id⟩ =>
      match engine.hostProperty? typeTag name with
      | some property =>
        match property.set with
        | some set =>
          let state ← Eval.ofHost (set (engine.heap.state id) content)
          modify fun engine => { engine with heap := engine.heap.setState id state }
          return value
        | none =>
          Eval.throwCause (.typeMismatch (.writableProperty typeTag name) "read-only property")
      | none => return value.setField name content
    | .collection collection =>
      if collection.containsKey name then
        return value.withData (.collection (collection.insertKey name content))
      else return value.setField name content
    | _ => return value.setField name content

/-- Whether a failure only says that something is missing. -/
def Failure.isMissing (failure : Failure) : Bool :=
  match failure.cause with
  | .unknownSymbol _ => true
  | _ => false

/-- The value with `content` at a path below it. -/
def setSegments (eval : Evaluator) (site : Site) (value content : Value) :
    List Segment → Eval Value
  | [] => return content
  | .index index :: rest => do
    let collection ← Eval.ofResult (value.indexed index)
    match index.key? with
    | some key =>
      let changed ← setSegments eval site ((collection.getKey? key).getD .null) content rest
      return (value.indexable index).withData (.collection (collection.insertKey key changed))
    | none =>
      let position ← Eval.ofResult (Value.writablePosition collection index)
      let changed ← setSegments eval site ((collection.get? position).getD .null) content rest
      let written ← Eval.ofResult (collection.setAt .null position changed)
      return (value.indexable index).withData (.collection written)
  | .property name :: [] => setProperty eval site value name content
  | .property name :: rest => do
    -- A property that is missing is created on the way to what lies below it.
    let inner ← match ← Eval.attempt (getProperty eval site value name) with
      | .ok inner => Eval.use .path inner
      | .error failure =>
        if failure.isMissing then
          Eval.noteCall .handled
          pure .null
        else Eval.throwFailure failure
    let changed ← setSegments eval site inner content rest
    setProperty eval site value name changed

/-- Writes a value below the value that the variable of a place has. -/
def storeBelow (eval : Evaluator) (site : Site) (place : Place) (value root : Value) : Eval Unit := do
  match Segment.indices? place.segments with
  | some indices =>
    let (changed, outcome) :=
      (← get).updateVariable place.name site.file (·.writeIndexed value indices)
    set changed
    Eval.ofResult outcome
  | none =>
    let changed ← setSegments eval site root value place.segments
    modify (·.assign place.name (.variable changed) site.file)

/-- Writes a value to a place. A path of indices is written in one step; paths through properties
change a copy of the variable, which replaces it once every step has succeeded. Signals cannot be
stored. -/
def store (eval : Evaluator) (site : Site) (place : Place) (value : Value) : Eval Unit := do
  if value.isSignal then Eval.throwCause (.typeMismatch .storable value.typeName)
  if place.segments.isEmpty then modify (·.assign place.name (.variable value) site.file)
  else
    match (← get).resolve? place.name site.file with
    | some (.variable root) => storeBelow eval site place value root
    | some other => Eval.throwCause (.typeMismatch .variable other.capability.describe)
    | none => storeBelow eval site place value .null

/-- Gives the place at a cursor the value that an action computes, the operand following there. -/
def applyAction (eval : Evaluator) (cursor : Cursor) (place : Place) (action : Action) :
    Eval (Value × Cursor) := do
  let (operand, behind) ←
    if action.takesOperand then evaluateAt eval .assigned cursor else pure (.null, cursor)
  let current ← if action.readsTarget then load eval behind.site place else pure .null
  let value ← Eval.ofHost (action.apply current operand)
  store eval behind.site place value
  return (value, behind)

/-- Calls a built-in method; one that changes its receiver writes it back to its place. -/
def callBuiltin (eval : Evaluator) (site : Site) (receiver : Value) (place : Option Place)
    (name : String) (arguments : List Value) : Eval Value := do
  if Value.isMutatingMethod name then
    match ← Eval.ofResult (receiver.mutate? name arguments) with
    | some (changed, result) =>
      if let some place := place then store eval site place changed
      return result
    | none => Eval.throwCause (.typeMismatch (.receiverSupporting name) receiver.typeName)
  else
    match ← Eval.ofResult (receiver.builtinMethod? name arguments) with
    | some result => return result
    | none => Eval.throwCause (.unknownSymbol (receiver.typeName ++ "." ++ name))

/-- Calls a method: one of the receiver's class or host type, or else a built-in one. -/
def callMethod (eval : Evaluator) (site : Site) (receiver : Value) (place : Option Place)
    (name : String) (args : List Arg) : Eval Value := do
  let engine ← get
  let values := args.map (·.value)
  match receiver.data with
  | .object ⟨_, .scripted id⟩ =>
    match (engine.heap.instances[id]?).bind (·.definition.methods.get? name) with
    | some method => callFunction eval method args (some receiver)
    | none => callBuiltin eval site receiver place name values
  | .object ⟨typeTag, .foreign id⟩ =>
    match engine.hostMethod? typeTag name values.length with
    | some method =>
      let (state, result) ← Eval.ofHost (method (engine.heap.state id) values)
      set { engine with heap := engine.heap.setState id state }
      return result
    | none => callBuiltin eval site receiver place name values
  | _ => callBuiltin eval site receiver place name values

end ScriptEngine

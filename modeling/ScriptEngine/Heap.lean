import ScriptEngine.Handler

/-! Objects that values refer to: instances of script classes and objects of the host. -/

namespace ScriptEngine

/-- An instance of a class of the script language. -/
structure Instance where
  definition : ClassDef
  /-- The name under which it is listed: its class and a number. -/
  name : String
  fields : OrderedMap Value

/-- All objects, each at the place that its handle gives. -/
structure Heap where
  instances : Array Instance := #[]
  /-- The states of the host's objects. -/
  foreign : Array Value := #[]

namespace Heap

/-- The fields of an instance. -/
def fields (heap : Heap) (id : Nat) : OrderedMap Value :=
  (heap.instances[id]?.map (·.fields)).getD .empty

/-- Stores a field of an instance. -/
def setField (heap : Heap) (id : Nat) (name : String) (value : Value) : Heap :=
  { heap with instances := heap.instances.modify id fun object =>
      { object with fields := object.fields.insert name value } }

/-- Creates an instance of a class with the fields it starts with. -/
def instantiate (heap : Heap) (definition : ClassDef) : Heap × Value :=
  let id := heap.instances.size
  let name := definition.name ++ "#" ++ toString (id + 1)
  ({ heap with instances := heap.instances.push ⟨definition, name, definition.defaults⟩ },
    .ofData (.object ⟨definition.name, .scripted id⟩))

/-- The instance that is listed under a name. -/
def instanceNamed? (heap : Heap) (name : String) : Option Value :=
  (heap.instances.findIdx? (·.name == name)).map fun id =>
    .ofData (.object ⟨((heap.instances[id]?).map (·.definition.name)).getD "", .scripted id⟩)

/-- Creates a host object of a type. -/
def allocate (heap : Heap) (typeTag : String) (state : Value) : Heap × Value :=
  ({ heap with foreign := heap.foreign.push state },
    .ofData (.object ⟨typeTag, .foreign heap.foreign.size⟩))

/-- The state of a host object. -/
def state (heap : Heap) (id : Nat) : Value := heap.foreign[id]?.getD .undefined

/-- Changes the state of a host object. -/
def setState (heap : Heap) (id : Nat) (state : Value) : Heap :=
  { heap with foreign := heap.foreign.modify id fun _ => state }

end Heap

end ScriptEngine

import ScriptEngine.Value.Basic

/-! The object types that a host offers to scripts. A host object has a value as its state. -/

namespace ScriptEngine

/-- A function for a number of arguments, or for any number. -/
structure Overload (α : Type) where
  arity : Option Nat
  run : α

/-- The overload for exactly `count` arguments, or else the one that was registered first. -/
def Overload.select? {α : Type} (overloads : List (Overload α)) (count : Nat) : Option α :=
  ((overloads.find? (·.arity == some count)).or overloads.head?).map (·.run)

/-- A property of a host type; without a setter it is read-only. -/
structure HostProperty where
  get : Value → Result Value
  set : Option (Value → Value → Result Value)

/-- What scripts can do with the objects of one type. -/
structure HostType where
  /-- From the arguments to the state of a new object. -/
  constructors : List (Overload (List Value → Result Value)) := []
  /-- From the state and the arguments to the new state and the result. -/
  methods : OrderedMap (List (Overload (Value → List Value → Result (Value × Value)))) := .empty
  properties : OrderedMap HostProperty := .empty
  /-- From the state to the elements that a loop visits. Instances of a script class with the name
  of the type are asked for elements too, and have no state to give. -/
  elements : Option (Option Value → Result (List Value)) := none

namespace HostType

/-- Adds a constructor. -/
def addConstructor (type : HostType) (arity : Option Nat) (run : List Value → Result Value) :
    HostType :=
  { type with constructors := type.constructors ++ [⟨arity, run⟩] }

/-- Adds an overload of a method. -/
def addMethod (type : HostType) (name : String) (arity : Option Nat)
    (run : Value → List Value → Result (Value × Value)) : HostType :=
  let overloads := (type.methods.get? name).getD []
  { type with methods := type.methods.insert name (overloads ++ [⟨arity, run⟩]) }

/-- Adds a property. -/
def addProperty (type : HostType) (name : String) (property : HostProperty) : HostType :=
  { type with properties := type.properties.insert name property }

end HostType

end ScriptEngine

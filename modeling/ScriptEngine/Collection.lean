import ScriptEngine.OrderedMap
import ScriptEngine.Fault

/-! Indexed storage: elements in order, some of which may be recorded under a key. -/

namespace ScriptEngine

/-- Elements by position. A map also records, in the order of insertion, the position of each key;
a plain array has no such index. -/
structure Collection (α : Type) where
  items : List α
  index : Option (List (String × Nat)) := none

namespace Collection

variable {α : Type}

/-- The largest length to which a write at an index may extend a collection. -/
def maxLength : Nat := 16777216

/-- A plain array. -/
def ofItems (items : List α) : Collection α := ⟨items, none⟩

/-- A map without elements. -/
def emptyMap : Collection α := ⟨[], some []⟩

/-- Whether keys are recorded at all. -/
def isMap (collection : Collection α) : Bool := collection.index.isSome

/-- The number of elements. -/
def size (collection : Collection α) : Nat := collection.items.length

/-- The recorded keys with their positions, in key order. -/
def keyIndex (collection : Collection α) : List (String × Nat) := collection.index.getD []

/-- The recorded keys in order. -/
def keys (collection : Collection α) : List String := collection.keyIndex.map (·.1)

/-- The element at a position. -/
def get? (collection : Collection α) (position : Nat) : Option α := collection.items[position]?

/-- The position recorded for a key. -/
def position? (collection : Collection α) (key : String) : Option Nat :=
  collection.keyIndex.lookup key

/-- The element recorded under a key. -/
def getKey? (collection : Collection α) (key : String) : Option α :=
  (collection.position? key).bind collection.get?

/-- Whether a key is recorded. -/
def containsKey (collection : Collection α) (key : String) : Bool :=
  (collection.position? key).isSome

/-- The key recorded for a position. -/
def keyOf? (collection : Collection α) (position : Nat) : Option String :=
  (collection.keyIndex.find? fun (_, recorded) => recorded == position).map (·.1)

/-- Appends an element without a key. -/
def push (collection : Collection α) (value : α) : Collection α :=
  { collection with items := collection.items ++ [value] }

/-- Stores a value under a key: in the place of the key, or as a new last element. -/
def insertKey (collection : Collection α) (key : String) (value : α) : Collection α :=
  match collection.position? key with
  | some position => { collection with items := collection.items.set position value }
  | none =>
    { items := collection.items ++ [value]
      index := some (collection.keyIndex ++ [(key, collection.size)]) }

/-- Refuses an index that no collection may reach. -/
def checkGrowth (position : Nat) : Result Unit :=
  if position < maxLength then .ok ()
  else fail (.typeMismatch (.indexBelow maxLength) (toString position))

/-- Stores a value at a position, with `gap` at every position that did not exist before. -/
def setAt (gap : α) (collection : Collection α) (position : Nat) (value : α) :
    Result (Collection α) :=
  if position < collection.size then
    .ok { collection with items := collection.items.set position value }
  else do
    checkGrowth position
    let gaps := List.replicate (position - collection.size) gap
    return { collection with items := collection.items ++ (gaps ++ [value]) }

/-- Inserts an element without a key in front of a position, or as the last one. -/
def insertAt (collection : Collection α) (position : Nat) (value : α) : Collection α :=
  let place := min position collection.size
  { items := collection.items.insertIdx place value
    -- The elements from there on move up by one place, and their keys with them.
    index := collection.index.map (·.map fun (key, recorded) =>
      (key, if place ≤ recorded then recorded + 1 else recorded)) }

/-- Removes the element at a position together with its key. -/
def removeAt (collection : Collection α) (position : Nat) : Collection α :=
  if position < collection.size then
    { items := collection.items.eraseIdx position
      index := collection.index.map fun index =>
        (index.filter fun (_, recorded) => recorded != position).map fun (key, recorded) =>
          (key, if position < recorded then recorded - 1 else recorded) }
  else collection

/-- Removes the element recorded under a key. -/
def removeKey (collection : Collection α) (key : String) : Collection α :=
  match collection.position? key with
  | some position => collection.removeAt position
  | none => collection

/-- Removes all elements and keys. -/
def clear (collection : Collection α) : Collection α := ⟨[], collection.index.map fun _ => []⟩

/-- The map with the given entries in order; a repeated key overwrites its first place. -/
def ofEntries (entries : List (String × α)) : Collection α :=
  entries.foldl (fun collection (key, value) => collection.insertKey key value) emptyMap

end Collection

end ScriptEngine

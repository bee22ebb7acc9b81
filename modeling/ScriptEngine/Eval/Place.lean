import ScriptEngine.Eval.Basic
import ScriptEngine.Value.Operator

/-! Places that can be assigned to: a variable and the steps below it. -/

namespace ScriptEngine

/-- A step below a variable. -/
inductive Segment where
  | index (index : Value)
  | property (name : String)

/-- A variable and the steps from it to a place. -/
structure Place where
  name : String
  segments : List Segment := []

/-- The same place one step further. -/
def Place.below (place : Place) (segment : Segment) : Place :=
  { place with segments := place.segments ++ [segment] }

/-- A step as it is written; an index is an expression. -/
inductive WrittenSegment where
  | index (text : List Char)
  | property (name : String)
  deriving DecidableEq, Repr

/-- A place as it is written. -/
structure WrittenPlace where
  name : String
  segments : List WrittenSegment
  deriving DecidableEq, Repr

namespace Cursor

/-- Reads the members behind the name of a namespace, at most `count` of them. -/
def readMembers (symbols : SymbolTable) : Nat → String → Cursor → String × Cursor
  | 0, name, cursor => (name, cursor)
  | count + 1, name, cursor =>
    if cursor.current = some '.' ∧ symbols.hasNamespace name then
      let (member, behind) := cursor.advance.readToken
      readMembers symbols count (name ++ "." ++ member) behind
    else (name, cursor)

/-- Reads a name with the namespaces in front of it. -/
def readQualified (symbols : SymbolTable) (cursor : Cursor) : String × Cursor :=
  let (name, behind) := cursor.readToken
  readMembers symbols behind.left name behind

/-- Whether a property follows at a cursor. -/
def startsProperty (cursor : Cursor) : Bool :=
  cursor.current == some '.' && ((cursor.peek 1).map Text.isWordStart).getD false

/-- Reads the steps of a place, at most `count` of them. There is no place where a call follows. -/
def readSegments : Nat → List WrittenSegment → Cursor → Read (Option (List WrittenSegment) × Cursor)
  | 0, segments, cursor => .ok (some segments, cursor)
  | count + 1, segments, cursor =>
    if cursor.current = some '[' then do
      let (text, behind) ← cursor.readBalanced '[' ']'
      readSegments count (segments ++ [.index text]) behind
    else if cursor.startsProperty then
      let (name, behind) := cursor.advance.readToken
      if behind.current = some '(' then .ok (none, behind)
      else readSegments count (segments ++ [.property name]) behind
    else .ok (some segments, cursor)

/-- Reads a place without evaluating its indices, if there is one at the cursor. -/
def readPlace (symbols : SymbolTable) (cursor : Cursor) : Read (Option WrittenPlace × Cursor) :=
  let here := cursor.skipSpaces
  if (here.current.map Text.isWordStart).getD false then do
    let (name, named) := here.readQualified symbols
    let (segments, behind) ← readSegments named.left [] named
    return (segments.map fun segments => ⟨name, segments⟩, behind)
  else .ok (none, here)

end Cursor

/-- Evaluates the indices of the steps to a place. -/
def evaluateSegments (eval : Evaluator) (site : Site) : List WrittenSegment → Eval (List Segment)
  | [] => return []
  | .index text :: rest => do
    let index ← evaluateAs eval .index site text
    return .index index :: (← evaluateSegments eval site rest)
  | .property name :: rest => return .property name :: (← evaluateSegments eval site rest)

/-- The place that a written one denotes. -/
def WrittenPlace.evaluate (eval : Evaluator) (site : Site) (place : WrittenPlace) : Eval Place :=
  return ⟨place.name, ← evaluateSegments eval site place.segments⟩

namespace Segment

/-- The index of a step that is one. -/
def index? : Segment → Option Value
  | .index value => some value
  | .property _ => none

/-- The indices of a path without properties. -/
def indices? (segments : List Segment) : Option (List Value) := segments.mapM index?

end Segment

namespace Value

/-- The key that an index is, if it is a string. -/
def key? (index : Value) : Option String :=
  match index.data with
  | .string key => some key
  | _ => none

/-- A value to write below: null and undefined become a collection that fits the index. -/
def indexable (value index : Value) : Value :=
  if value.isNothing then
    if index.isString then .collection .emptyMap else .array []
  else value

/-- The collection that is written below, with the failure for values that are none. -/
def indexed (value index : Value) : Result (Collection Value) :=
  match (value.indexable index).asCollection? with
  | some collection => .ok collection
  | none => fail (.typeMismatch .arrayToIndex value.typeName)

/-- A position to write at, which must be within reach of the collection. -/
def writablePosition (collection : Collection Value) (index : Value) : Result Nat := do
  let position ← index.toIndex
  if collection.size ≤ position then Collection.checkGrowth position
  return position

/-- Checks that `setIndexed` can write below a value at a path of indices. -/
def checkIndexed (value : Value) : List Value → Result Unit
  | [] => .ok ()
  | index :: rest => do
    let collection ← value.indexed index
    match index.key? with
    | some key => checkIndexed ((collection.getKey? key).getD .null) rest
    | none =>
      let position ← writablePosition collection index
      checkIndexed ((collection.get? position).getD .null) rest

/-- Puts `content` at a path of indices below a value: what the value is then, and whether all of the
path could be walked. Missing collections are created and short ones are filled up with null. What has
been changed until the walk fails stays changed. -/
def setIndexed (value : Value) (content : Value) : List Value → Value × Result Unit
  | [] => (content, .ok ())
  | index :: rest =>
    let target := value.indexable index
    match value.indexed index with
    | .error failure => (target, .error failure)
    | .ok collection =>
      match index.key? with
      | some key =>
        let (changed, outcome) := setIndexed ((collection.getKey? key).getD .null) content rest
        (target.withData (.collection (collection.insertKey key changed)), outcome)
      | none =>
        match writablePosition collection index with
        | .error failure => (target, .error failure)
        | .ok position =>
          let (changed, outcome) := setIndexed ((collection.get? position).getD .null) content rest
          match collection.setAt .null position changed with
          | .error failure => (target, .error failure)
          | .ok written => (target.withData (.collection written), outcome)

/-- Writes at a path of indices that is checked before anything is changed. -/
def writeIndexed (value content : Value) (indices : List Value) : Value × Result Unit :=
  match value.checkIndexed indices with
  | .error failure => (value, .error failure)
  | .ok () => value.setIndexed content indices

end Value

end ScriptEngine

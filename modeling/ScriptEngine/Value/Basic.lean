import ScriptEngine.Collection
import ScriptEngine.DateTime

/-! Values of the script language. -/

namespace ScriptEngine

/-- How a computed property produces or takes its value. -/
inductive Accessor where
  /-- A call of the named function. -/
  | function (name : String)
  /-- The evaluation of an expression. -/
  | expression (text : String)
  deriving DecidableEq, Repr

/-- The accessors bound to one property name. -/
structure Computed where
  getter : Option Accessor := none
  setter : Option Accessor := none
  deriving DecidableEq, Repr

/-- A named set of integer constants in the order of their declaration. -/
structure Enumeration where
  name : String
  entries : OrderedMap Int

/-- What an object handle points at. -/
inductive ObjectTarget where
  /-- An instance of a class that a script defines. -/
  | scripted (id : Nat)
  /-- An object that the host provides. -/
  | foreign (id : Nat)
  deriving DecidableEq, Repr

/-- A reference to an object with the name of its type. -/
structure ObjectHandle where
  typeTag : String
  target : ObjectTarget
  deriving DecidableEq, Repr

mutual

/-- A value with its ad-hoc fields and computed properties. -/
structure Value where
  data : Data
  fields : OrderedMap Value := ⟨[]⟩
  computed : OrderedMap Computed := ⟨[]⟩

/-- What a value is apart from its fields. The last four are control signals, which statements
yield and which no variable holds. -/
inductive Data where
  | undefined
  | null
  | number (number : Float)
  | string (text : String)
  | bytes (bytes : List UInt8)
  | dateTime (moment : DateTime)
  | collection (collection : Collection Value)
  | enumeration (enumeration : Enumeration)
  | object (handle : ObjectHandle)
  | breakSignal
  | continueSignal
  | returnSignal (returned : Value)
  | quitSignal (code : Int)

end

namespace Value

/-- A value without fields. -/
def ofData (data : Data) : Value := { data }

/-- The value of a name that was never assigned. -/
def undefined : Value := ofData .undefined

/-- The explicit empty value. -/
def null : Value := ofData .null

instance : Inhabited Value := ⟨undefined⟩

/-- A number. -/
def number (number : Float) : Value := ofData (.number number)

/-- A whole number. -/
def ofNat (count : Nat) : Value := number (Float.ofNat count)

/-- An integer, rounded to the nearest double. -/
def ofInt (integer : Int) : Value := number (Float.ofInt integer)

/-- A truth value, which is the number 1 or 0. -/
def ofBool (holds : Bool) : Value := number (if holds then 1 else 0)

/-- A string. -/
def string (text : String) : Value := ofData (.string text)

/-- A string of one character. -/
def ofChar (c : Char) : Value := string c.toString

/-- A plain array. -/
def array (items : List Value) : Value := ofData (.collection (.ofItems items))

/-- A collection. -/
def collection (collection : Collection Value) : Value := ofData (.collection collection)

/-- A map with the given entries; a repeated key overwrites its first place. -/
def map (entries : List (String × Value)) : Value := collection (.ofEntries entries)

/-- The signal that leaves the innermost loop or switch. -/
def breakSignal : Value := ofData .breakSignal

/-- The signal that starts the next pass of the innermost loop. -/
def continueSignal : Value := ofData .continueSignal

/-- The signal that leaves the current call with a value. -/
def returnSignal (returned : Value) : Value := ofData (.returnSignal returned)

/-- The signal that stops the script with an exit code. -/
def quitSignal (code : Int) : Value := ofData (.quitSignal code)

/-- Whether a value is null or undefined. -/
def isNothing (value : Value) : Bool :=
  match value.data with
  | .undefined => true
  | .null => true
  | _ => false

/-- Whether a value is undefined. -/
def isUndefined (value : Value) : Bool :=
  match value.data with
  | .undefined => true
  | _ => false

/-- Whether a value is a number. -/
def isNumber (value : Value) : Bool :=
  match value.data with
  | .number _ => true
  | _ => false

/-- Whether a value is a string. -/
def isString (value : Value) : Bool :=
  match value.data with
  | .string _ => true
  | _ => false

/-- The collection that a value is, if it is one. -/
def asCollection? (value : Value) : Option (Collection Value) :=
  match value.data with
  | .collection collection => some collection
  | _ => none

/-- Whether a value is a control signal. -/
def isSignal (value : Value) : Bool :=
  match value.data with
  | .breakSignal => true
  | .continueSignal => true
  | .returnSignal _ => true
  | .quitSignal _ => true
  | _ => false

/-- Whether a value is the signal that leaves a loop or switch. -/
def isBreak (value : Value) : Bool :=
  match value.data with
  | .breakSignal => true
  | _ => false

/-- The exit code of a quit signal. -/
def quitCode? (value : Value) : Option Int :=
  match value.data with
  | .quitSignal code => some code
  | _ => none

/-- Takes a value out of one return signal. -/
def returned (value : Value) : Value :=
  match value.data with
  | .returnSignal inner => inner
  | _ => value

/-- A control signal as the statement that yields it, and null for any other value. -/
def signalOrNull (value : Value) : Value := if value.isSignal then value else null

/-- The value that a finished call or script hands out: what it returned, null for a signal that no
loop took, and otherwise its last value. -/
def outcome (value : Value) : Value :=
  match value.data with
  | .returnSignal inner => inner
  | .breakSignal => null
  | .continueSignal => null
  | _ => value

/-- The name of a value's type. -/
def typeName (value : Value) : String :=
  match value.data with
  | .undefined => "UNDEFINED"
  | .null => "NONE"
  | .number _ => "NUMBER"
  | .string _ => "STRING"
  | .bytes _ => "BYTES"
  | .dateTime _ => "DATETIME"
  | .collection collection => if collection.isMap then "MAP" else "ARRAY"
  | .enumeration _ => "ENUM"
  | .object handle => handle.typeTag
  | .breakSignal => "BREAK"
  | .continueSignal => "CONTINUE"
  | .returnSignal _ => "RETURN"
  | .quitSignal _ => "QUIT"

/-- The number of elements, characters, bytes or entries, where a value has any. -/
def size? (value : Value) : Option Nat :=
  match value.data with
  | .collection collection => some collection.size
  | .string text => some text.length
  | .bytes bytes => some bytes.length
  | .enumeration enumeration => some enumeration.entries.size
  | .null => some 0
  | .undefined => some 0
  | _ => none

/-- The ad-hoc field `name`. -/
def field? (value : Value) (name : String) : Option Value := value.fields.get? name

/-- Stores an ad-hoc field. -/
def setField (value : Value) (name : String) (content : Value) : Value :=
  { value with fields := value.fields.insert name content }

/-- The computed getter of a property. -/
def getter? (value : Value) (name : String) : Option Accessor :=
  (value.computed.get? name).bind (·.getter)

/-- The computed setter of a property. -/
def setter? (value : Value) (name : String) : Option Accessor :=
  (value.computed.get? name).bind (·.setter)

/-- Replaces what a value is and keeps its fields. -/
def withData (value : Value) (data : Data) : Value := { value with data }

end Value

/-- The value of an entry. -/
def Enumeration.valueOf? (enumeration : Enumeration) (name : String) : Option Int :=
  enumeration.entries.get? name

/-- The first entry with a value. -/
def Enumeration.nameOf? (enumeration : Enumeration) (value : Int) : Option String :=
  enumeration.entries.nameWhere? (· == value)

end ScriptEngine

import ScriptEngine.Eval.Argument
import ScriptEngine.Eval.Worker
import ScriptEngine.Tagged.Reader
import ScriptEngine.Value.Builtin
import ScriptEngine.Value.Operator

/-! Calls of native functions and the functions and operators that every interpreter starts with. -/

namespace ScriptEngine

/-- The texts of values with a separator between them. -/
def joinedText (separator : String) (values : List Value) : String :=
  String.intercalate separator (values.map Value.display)

/-- The tagged text of a value. It ends for all values but objects that refer back to themselves. -/
def marshal (value : Value) : Eval String := do
  let heap := (← get).heap
  match Tagged.ofValue? (fun id => (heap.fields id).entries) (heap.instances.size + 1) value with
  | some text => return text
  | none => throw .exhausted

/-- Runs a function that every interpreter starts with. -/
def runBuiltin (eval : Evaluator) (site : Site) (args : List Value) : Builtin → Eval Value
  | .print => do
    modify (·.write (joinedText " " args ++ "\n"))
    return .null
  | .write => do
    modify (·.write (joinedText "" args))
    return .null
  | .type => return .string (Value.argument args 0).typeName
  | .str => return .string (Value.argument args 0).display
  | .num => do
    let value := Value.argument args 0
    match value.number? with
    | some number => return .number number
    | none => Eval.throwCause (.typeMismatch .numericValue value.typeName)
  | .isDefined => do
    return .ofBool ((← get).resolve? (Value.argument args 0).display site.file).isSome
  | .marshal => return .string (← marshal (Value.argument args 0))
  | .unmarshal => Eval.ofResult (Tagged.toValue (Value.argument args 0).display)
  | .include => includeFile eval site (Value.argument args 0).display
  | .join => do joinWorker (← Eval.ofResult (Value.argument args 0).toIndex)
  | .sleep => do
    sleep (Value.truncated (Value.argument args 0).toNumber)
    return .null
  | .cancel => do
    modify (·.cancel)
    return .null

/-- What a host function may know about a call at a site. -/
def Engine.callSite (engine : Engine) (site : Site) : CallSite :=
  ⟨site, engine.calls.length, (engine.stack.frames.map (·.kind.name)).reverse⟩

/-- Runs what is behind a native function. -/
def runNative (eval : Evaluator) (site : Site) (args : List Value) : NativeBody → Eval Value
  | .builtin builtin => runBuiltin eval site args builtin
  | .host run => do Eval.ofHost (run ((← get).callSite site) args)

/-- Calls a native function after checking the number of arguments. -/
def callNative (eval : Evaluator) (site : Site) (native : Native) (args : List Value) :
    Eval Value := do
  if let some arity := native.arity then
    if args.length ≠ arity then
      Eval.throwCause (.arguments native.name (.wrongCount arity args.length))
  runNative eval site args native.body

/-- The native functions of a new interpreter. -/
def preludeNatives : List Native := [
  ⟨"print", none, .builtin .print⟩,
  ⟨"write", none, .builtin .write⟩,
  ⟨"type", some 1, .builtin .type⟩,
  ⟨"str", some 1, .builtin .str⟩,
  ⟨"num", some 1, .builtin .num⟩,
  ⟨"isdefined", some 1, .builtin .isDefined⟩,
  ⟨"marshal", some 1, .builtin .marshal⟩,
  ⟨"unmarshal", some 1, .builtin .unmarshal⟩,
  ⟨"include", some 1, .builtin .include⟩,
  ⟨"join", some 1, .builtin .join⟩,
  ⟨"sleep", some 1, .builtin .sleep⟩,
  ⟨"cancel", some 0, .builtin .cancel⟩]

namespace Action

/-- An operator that combines the target's value with an operand. -/
def binary (token : String) (apply : Value → Value → Result Value) : Action :=
  ⟨token, true, true, apply⟩

/-- An operator without an operand. -/
def unary (token : String) (apply : Value → Result Value) : Action :=
  ⟨token, false, true, fun current _ => apply current⟩

/-- Plain assignment, written with any token. -/
def assignment (token : String) : Action := ⟨token, true, false, fun _ operand => .ok operand⟩

/-- Moves a number by a distance. -/
def step (distance : Float) (current : Value) : Result Value :=
  match current.data with
  | .number number => .ok (.number (number + distance))
  | _ => fail (.typeMismatch .numberToStep current.typeName)

end Action

/-- The operators of a new interpreter. -/
def preludeActions : List Action := [
  .assignment "=",
  .binary "+=" BinaryOp.add.apply,
  .binary "-=" BinaryOp.subtract.apply,
  .binary "*=" BinaryOp.multiply.apply,
  .binary "/=" BinaryOp.divide.apply,
  .binary "%=" BinaryOp.modulo.apply,
  .unary "++" (Action.step 1),
  .unary "--" (Action.step (-1))]

/-- A new interpreter. -/
def Engine.new (config : Config) (files : FileTree) : Engine :=
  let symbols := preludeNatives.foldl (fun symbols native =>
    symbols.setNative native.name (.native native)) {}
  { config, files, symbols := preludeActions.foldl SymbolTable.setAction symbols }

end ScriptEngine

import ScriptEngine.Eval.Basic

/-! Loops. A loop fails rather than start a pass beyond the limit of the configuration. -/

namespace ScriptEngine

/-- What a loop does behind a pass of its body. -/
inductive Flow where
  | next
  | stop
  | exit (signal : Value)

/-- Goes on with a loop behind a pass, or ends it. -/
def Flow.follow (flow : Flow) (goesOn : Eval Value) : Eval Value :=
  match flow with
  | .next => goesOn
  | .stop => return .null
  | .exit signal => return signal

/-- Runs the body of a loop once. -/
def runPass (eval : Evaluator) (site : Site) (body : List Char) : Eval Flow := do
  let value ← runText eval site body
  return match value.data with
    | .breakSignal => .stop
    | .returnSignal _ => .exit value
    | .quitSignal _ => .exit value
    | _ => .next

/-- Whether a condition holds; a blank one always does. -/
def holds (eval : Evaluator) (site : Site) (condition : List Char) : Eval Bool := do
  if (Text.trim condition).isEmpty then return true
  else return (← evaluateAs eval .condition site condition).truthy

/-- Admits one more pass of a loop that may still run `left` of them. Before each pass other threads
take their turn, so that no loop keeps them from changing what it waits for. -/
def admitPass (left : Nat) : Eval Unit := do
  Eval.giveWay
  Eval.checkCancelled
  if left = 0 then Eval.throwCause (.infiniteLoop (← get).config.maxLoopIterations)
  modify (·.startPass)

/-- Runs passes as long as `condition` holds before each, with `step` behind each that does not end
the loop. -/
def whileLoop (condition : Eval Bool) (pass : Eval Flow) (step : Eval Unit) : Nat → Eval Value
  | 0 => do
    if ← condition then admitPass 0
    return .null
  | left + 1 => do
    if ← condition then
      admitPass (left + 1)
      (← pass).follow do
        step
        whileLoop condition pass step left
    else return .null

/-- Runs passes as long as `condition` holds behind each. -/
def doLoop (condition : Eval Bool) (pass : Eval Flow) : Nat → Eval Value
  | 0 => do
    admitPass 0
    return .null
  | left + 1 => do
    admitPass (left + 1)
    (← pass).follow do
      if ← condition then doLoop condition pass left else return .null

/-- Runs a pass for each element, `visit` having made the element known to it. -/
def eachLoop (visit : Value → Eval Unit) (pass : Eval Flow) : Nat → List Value → Eval Value
  | _, [] => return .null
  | 0, _ :: _ => do
    admitPass 0
    return .null
  | left + 1, element :: rest => do
    admitPass (left + 1)
    visit element
    (← pass).follow (eachLoop visit pass left rest)

/-- The number of passes that a loop may run. -/
def passLimit : Eval Nat := return (← get).config.maxLoopIterations

/-- Runs the `while` loop whose header is at a cursor. -/
def runWhile (eval : Evaluator) (cursor : Cursor) : Eval (Value × Cursor) := do
  let (condition, headed) ← Eval.ofRead (cursor.readBalanced '(' ')')
  let (body, behind) ← Eval.ofRead headed.readBody
  let site := behind.site
  let value ← whileLoop (holds eval site condition) (runPass eval site body) (pure ()) (← passLimit)
  return (value, behind)

/-- Runs the `do` loop whose body is at a cursor. -/
def runDo (eval : Evaluator) (cursor : Cursor) : Eval (Value × Cursor) := do
  let (body, next) ← Eval.ofRead cursor.readBody
  let (word, named) := next.readToken
  if word ≠ "while" then Eval.refuse named .missingWhile
  let (condition, headed) ← Eval.ofRead (named.readBalanced '(' ')')
  let behind ← Eval.ofRead headed.endStatement
  let site := behind.site
  let value ← doLoop (holds eval site condition) (runPass eval site body) (← passLimit)
  return (value, behind)

/-- Runs text for its effects; blank text does nothing. -/
def runAside (eval : Evaluator) (site : Site) (text : List Char) : Eval Unit := do
  if !text.isEmpty then
    let _ ← Eval.use .aside (← runText eval site text)

/-- Runs a loop with a header of three parts. -/
def runCounted (eval : Evaluator) (site : Site) (init condition step body : List Char) :
    Eval Value := do
  runAside eval site init
  whileLoop (holds eval site condition) (runPass eval site body) (runAside eval site step)
    (← passLimit)

/-- Splits a header into the name that takes the elements and the expression that gives them. The
two stand around a colon, or else around the first `in` or `of` between spaces. -/
def splitEach? (header : List Char) : Option (List Char × List Char) :=
  let bare := if "var ".toList.isPrefixOf header then header.drop 4 else header
  match splitTopLevel bare ':' with
  | [name, source] => some (name, source)
  | _ =>
    ((Text.cut? " in ".toList bare).or (Text.cut? " of ".toList bare)).map fun (name, source) =>
      (Text.trim name, Text.trim source)

/-- The elements that a loop over a value visits. -/
def Engine.elements (engine : Engine) (value : Value) : Result (List Value) :=
  match value.data with
  | .collection collection => .ok collection.items
  | .string text => .ok (text.toList.map .ofChar)
  | .enumeration enumeration => .ok (enumeration.entries.names.map .string)
  | .object ⟨typeTag, target⟩ =>
    match (engine.hostTypes.get? typeTag).bind (·.elements), target with
    | some elements, .foreign id => elements (some (engine.heap.state id))
    | some elements, .scripted _ => elements none
    | none, _ => fail (.typeMismatch .enumerableObject typeTag)
  | .null => .ok []
  | .undefined => .ok []
  | _ => fail (.typeMismatch .iterable value.typeName)

/-- Runs a loop over the elements of a value. -/
def runEach (eval : Evaluator) (cursor : Cursor) (header body : List Char) : Eval Value := do
  match splitEach? header with
  | none => Eval.refuse cursor (.malformedForEachHeader (String.ofList header))
  | some (name, source) =>
    let site := cursor.site
    let value ← evaluateAs eval .source site source
    let elements ← Eval.ofHost ((← get).elements value)
    let visit := fun element =>
      modify (·.defineLocal (String.ofList name) (.variable element) site.file)
    eachLoop visit (runPass eval site body) (← passLimit) elements

/-- Runs the `for` loop whose header is at a cursor. -/
def runFor (eval : Evaluator) (cursor : Cursor) : Eval (Value × Cursor) := do
  let (header, headed) ← Eval.ofRead (cursor.readBalanced '(' ')')
  let (body, behind) ← Eval.ofRead headed.readBody
  let value ← match splitTopLevel header ';' with
    | [init, condition, step] => runCounted eval behind.site init condition step body
    | [each] => runEach eval behind each body
    | _ => Eval.refuse behind .malformedForHeader
  return (value, behind)

end ScriptEngine

import ScriptEngine.Eval.Branch
import ScriptEngine.Eval.Class
import ScriptEngine.Eval.Declaration
import ScriptEngine.Eval.Loop
import ScriptEngine.Eval.Member
import ScriptEngine.Eval.TryCatch
import ScriptEngine.Eval.Worker

/-! Statements, by the keyword or the target that they start with. -/

namespace ScriptEngine

/-- Runs the `throw` statement whose text is at a cursor. -/
def runThrow (eval : Evaluator) (cursor : Cursor) : Eval (Value × Cursor) := do
  let (value, behind) ← evaluateAt eval .thrown cursor
  let _ ← Eval.ofRead behind.endStatement
  Eval.throwCause (.thrown value.display)

/-- Whether a statement has no operand at a cursor. -/
def Cursor.endsHere (cursor : Cursor) : Bool :=
  match cursor.current with
  | none => true
  | some c => c == ';' || c == '}'

/-- Takes the operand of a `return`. Only the signal to quit stays one inside of the signal to
return. -/
def takeReturned (value : Value) : Eval Value :=
  if value.quitCode?.isSome then pure value else Eval.use .returned value

/-- Runs the `return` statement whose value is at a cursor. -/
def runReturn (eval : Evaluator) (cursor : Cursor) : Eval (Value × Cursor) := do
  let here := cursor.skipSpaces
  let (value, behind) ← if here.endsHere then pure (.null, here) else eval .expression here
  let returned ← takeReturned value
  return (.returnSignal returned, ← Eval.ofReadBehind returned behind.endStatement)

/-- Runs a statement that consists of its keyword and yields a signal. -/
def runSignal (signal : Value) (cursor : Cursor) : Eval (Value × Cursor) :=
  return (signal, ← Eval.ofRead cursor.endStatement)

/-- The exit code that a number stands for, within 32 bits. -/
def exitCode (number : Float) : Int := number.toInt32.toInt

/-- Runs the `quit` statement whose optional code is at a cursor. -/
def runQuit (eval : Evaluator) (cursor : Cursor) : Eval (Value × Cursor) := do
  let here := cursor.skipSpaces
  let (code, behind) ←
    if here.current = some '(' then
      let (text, behind) ← Eval.ofRead (here.readBalanced '(' ')')
      if (Text.trim text).isEmpty then pure (0, behind)
      else pure (exitCode (← evaluateAs eval .exitCode behind.site text).toNumber, behind)
    else pure (0, here)
  let next ← Eval.ofRead behind.endStatement
  Eval.note (.quit code)
  return (.quitSignal code, next)

/-- Runs the `lock` statement at a cursor. No two threads are in the body of such a statement. -/
def runLock (eval : Evaluator) (cursor : Cursor) : Eval (Value × Cursor) := do
  let headed ← Eval.ofRead cursor.skipHeader
  let (body, behind) ← Eval.ofRead headed.readBody
  let value ← Eval.inRegion (runText eval behind.site body)
  return (value.signalOrNull, behind)

/-- Creates the object whose class is named at a cursor. Classes of the script come before types of
the host. -/
def runNew (eval : Evaluator) (cursor : Cursor) : Eval (Value × Cursor) := do
  let (name, named) := cursor.readQualified (← get).symbols
  if name = "" then Eval.refuse named .missingClassAfterNew
  let (args, behind) ← readArgs eval named
  let engine ← get
  match engine.class? name behind.file with
  | some definition => return (← instantiate eval definition args, behind)
  | none =>
    let values := args.map (·.value)
    match (engine.hostTypes.get? name).bind fun type =>
        Overload.select? type.constructors values.length with
    | some construct =>
      let state ← Eval.ofHost (construct values)
      let (heap, value) := engine.heap.allocate name state
      set { engine with heap }
      return (value, behind)
    | none => Eval.throwCause (.unknownSymbol name)

/-- Runs what a keyword starts; the cursor is behind the keyword. -/
def runKeyword (eval : Evaluator) (keyword : Keyword) (cursor : Cursor) : Eval (Value × Cursor) :=
  match keyword with
  | .ifKeyword => runIf eval cursor
  | .whileKeyword => runWhile eval cursor
  | .doKeyword => runDo eval cursor
  | .forKeyword => runFor eval cursor
  | .switchKeyword => runSwitch eval cursor
  | .tryKeyword => runTry eval cursor
  | .elifKeyword => Eval.refuse cursor (.orphanKeyword keyword.name)
  | .elseKeyword => Eval.refuse cursor (.orphanKeyword keyword.name)
  | .caseKeyword => Eval.refuse cursor (.orphanKeyword keyword.name)
  | .defaultKeyword => Eval.refuse cursor (.orphanKeyword keyword.name)
  | .catchKeyword => Eval.refuse cursor (.orphanKeyword keyword.name)
  | .throwKeyword => runThrow eval cursor
  | .returnKeyword => runReturn eval cursor
  | .breakKeyword => runSignal .breakSignal cursor
  | .continueKeyword => runSignal .continueSignal cursor
  | .quitKeyword => runQuit eval cursor
  | .functionKeyword => declareFunction cursor
  | .cfunctionKeyword => declareCompiled cursor
  | .classKeyword => declareClass eval cursor
  | .namespaceKeyword => runNamespace eval cursor
  | .varKeyword => runVar eval cursor
  | .enumKeyword => declareEnum eval cursor
  | .newKeyword => runNew eval cursor
  | .lockKeyword => runLock eval cursor
  | .threadKeyword => runWorker false cursor
  | .spawnKeyword => runWorker true cursor

/-- The keyword that starts a statement with a first word, in a file. A keyword that starts an
expression starts no statement of its own. -/
def Engine.statementKeyword? (engine : Engine) (word file : String) : Option Keyword :=
  match engine.resolve? word file with
  | some (.keyword keyword) => if keyword.startsExpression then none else some keyword
  | _ => none

/-- The number of characters in which the token of an action is looked for. -/
def actionWindow : Nat := 8

/-- Runs the assignment at a cursor, if there is a place with an action behind it. -/
def runAssignment? (eval : Evaluator) (cursor : Cursor) : Eval (Option (Value × Cursor)) := do
  let symbols := (← get).symbols
  match ← Eval.ofRead (cursor.readPlace symbols) with
  | (none, _) => return none
  | (some written, behind) =>
    let here := behind.skipSpaces
    match symbols.matchAction? (here.rest.take actionWindow) with
    | none => return none
    | some action =>
      let operand := here.advanceBy action.token.length
      let place ← written.evaluate eval operand.site
      let (value, next) ← applyAction eval operand place action
      return some (value, ← Eval.ofRead next.endStatement)

/-- Runs the statement at a cursor that starts with a step operator. -/
def runStep (eval : Evaluator) (cursor : Cursor) : Eval (Value × Cursor) := do
  let symbols := (← get).symbols
  match symbols.matchAction? (cursor.rest.take 2) with
  | none => Eval.refuse cursor .unknownStepOperator
  | some action =>
    match ← Eval.ofRead ((cursor.advanceBy action.token.length).readPlace symbols) with
    | (none, behind) => Eval.refuse behind (.missingTarget action.token)
    | (some written, behind) =>
      let place ← written.evaluate eval behind.site
      let (value, next) ← applyAction eval behind place action
      return (value, ← Eval.ofRead next.endStatement)

/-- Runs the statement at a cursor that is an expression. -/
def runExpression (eval : Evaluator) (cursor : Cursor) : Eval (Value × Cursor) := do
  let (value, behind) ← eval .expression cursor
  return (value, ← Eval.ofReadBehind value behind.endStatement)

/-- Runs the statement at a cursor that starts with a word. -/
def runWord (eval : Evaluator) (cursor : Cursor) : Eval (Value × Cursor) := do
  let (word, behind) := cursor.readToken
  match (← get).statementKeyword? word cursor.file with
  | some keyword => runKeyword eval keyword behind
  | none =>
    match ← runAssignment? eval cursor with
    | some finished => return finished
    | none => runExpression eval cursor

/-- Runs the statement at a cursor. -/
def runStatement (eval : Evaluator) (cursor : Cursor) : Eval (Value × Cursor) := do
  Eval.checkCancelled
  let here := cursor.skipSpaces
  modify (·.startStatement here.site)
  match here.current with
  | none => return (.null, here)
  | some ';' => return (.null, here.advance)
  | some '{' =>
    let (body, behind) ← Eval.ofRead (here.readBalanced '{' '}')
    return (← runText eval behind.site body, behind)
  | some c =>
    if here.startsWith "++" || here.startsWith "--" then runStep eval here
    else if Text.isWordStart c then runWord eval here
    else runExpression eval here

end ScriptEngine

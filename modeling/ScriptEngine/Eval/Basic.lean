import ScriptEngine.Eval.Step
import ScriptEngine.Source.Literal
import ScriptEngine.Source.Statement

/-! Running text. Every construct is given the evaluator of what is nested in it, and leaves the
recursion to the place where all of them are tied together. -/

namespace ScriptEngine

/-- What a cursor stands in front of. -/
inductive Phrase where
  | expression
  | statement
  deriving DecidableEq, Repr

/-- Runs the phrase at a cursor: its value and the cursor behind it. -/
abbrev Evaluator := Phrase → Cursor → Eval (Value × Cursor)

/-- Evaluates all that follows a cursor as one expression. -/
def evaluateAll (eval : Evaluator) (cursor : Cursor) : Eval Value := do
  let (value, behind) ← eval .expression cursor
  let here := behind.skipSpaces
  match here.current with
  | none => return value
  | some c =>
    let _ ← Eval.use .superseded value
    Eval.refuse here (.trailing c)

/-- Evaluates text taken from a site as one expression. -/
def evaluateText (eval : Evaluator) (site : Site) (text : List Char) : Eval Value :=
  evaluateAll eval (.ofText site text)

/-- Evaluates text taken from a site as one expression whose value is used up. -/
def evaluateAs (eval : Evaluator) (use : Use) (site : Site) (text : List Char) : Eval Value := do
  Eval.use use (← evaluateText eval site text)

/-- Evaluates the expression at a cursor, whose value is used up. -/
def evaluateAt (eval : Evaluator) (use : Use) (cursor : Cursor) : Eval (Value × Cursor) := do
  let (value, behind) ← eval .expression cursor
  return (← Eval.use use value, behind)

/-- Runs at most `count` statements and all of them up to the first signal; `last` is the value of
the statement before them. -/
def runStatements (eval : Evaluator) : Nat → Value → Cursor → Eval Value
  | 0, _, _ => throw .exhausted
  | count + 1, last, cursor => do
    let here := cursor.skipSpaces
    match here.current with
    | none => return last
    | some '}' => Eval.refuse here (.unexpected "\x7d")
    | some _ =>
      let (value, behind) ← eval .statement here
      if value.isSignal then return value else runStatements eval count value behind

/-- Runs all statements that follow a cursor. The result is the first signal, or the value of the
last statement. -/
def runAll (eval : Evaluator) (cursor : Cursor) : Eval Value :=
  -- A statement takes at least one character.
  runStatements eval (cursor.left + 1) .null cursor

/-- Runs the statements of text taken from a site. -/
def runText (eval : Evaluator) (site : Site) (text : List Char) : Eval Value :=
  runAll eval (.ofText site text)

/-- Runs a script under a file name. -/
def runScript (eval : Evaluator) (source file : String) (isMain : Bool) : Eval Value := do
  if isMain then modify (·.startMain file)
  let value ← runAll eval (← Eval.ofResult (Cursor.ofSource source file))
  return value.outcome

/-- Runs another file under its path seen from the file of a site. -/
def includeFile (eval : Evaluator) (site : Site) (path : String) : Eval Value := do
  let resolved := FileTree.resolve site.file path
  match (← get).files.read resolved with
  | .ok source => runScript eval source resolved false
  | .error fault => Eval.throwCause (.unreadable resolved fault.describe)

end ScriptEngine

import ScriptEngine.Eval.Basic

/-! Statements that choose what to run: `if` chains and `switch`. -/

namespace ScriptEngine

/-- Runs the `if` chain whose next condition is at a cursor; at most `clauses` conditions follow.
Nothing of the branches that are not taken is evaluated. -/
def runChain (eval : Evaluator) : Nat → Cursor → Eval (Value × Cursor)
  | 0, _ => throw .exhausted
  | clauses + 1, cursor => do
    let (condition, headed) ← Eval.ofRead (cursor.readBalanced '(' ')')
    if (← evaluateAs eval .condition headed.site condition).truthy then
      let (body, behind) ← Eval.ofRead headed.readBody
      let value ← runText eval behind.site body
      return (value.signalOrNull, ← Eval.ofReadBehind value behind.skipElseChain)
    else
      let next ← Eval.ofRead headed.skipStatement
      match next.peekToken with
      | "elif" => runChain eval clauses next.skipToken
      | "else" =>
        let branch := next.skipToken
        if branch.peekToken = "if" then runChain eval clauses branch.skipToken
        else
          let (body, behind) ← Eval.ofRead branch.readBody
          let value ← runText eval behind.site body
          return (value.signalOrNull, behind)
      | _ => return (.null, next)

/-- Runs the `if` statement whose condition is at a cursor. -/
def runIf (eval : Evaluator) (cursor : Cursor) : Eval (Value × Cursor) :=
  runChain eval (cursor.left + 1) cursor

/-- Skips the statements in front of the next label. -/
def skipCases (cursor : Cursor) : Eval Cursor := do
  -- A statement takes at least one character.
  match ← Eval.ofRead (cursor.skipToLabel (cursor.left + 1)) with
  | some next => return next
  | none => throw .exhausted

/-- Runs at most `count` labels and statements of the body of a `switch` and all of them up to the
first signal. `running` tells whether a label has matched; until then statements are skipped. -/
def runCases (eval : Evaluator) (subject : Value) : Nat → Bool → Cursor → Eval Value
  | 0, _, _ => throw .exhausted
  | count + 1, running, cursor => do
    let here := cursor.skipSpaces
    if here.atEnd then return .null
    else match here.peekToken with
      | "case" =>
        let (candidate, behind) ← evaluateAt eval .label here.skipToken
        let next ← Eval.ofRead (behind.expect ':')
        runCases eval subject count (running || candidate == subject) next
      | "default" =>
        let next ← Eval.ofRead (here.skipToken.expect ':')
        runCases eval subject count true next
      | _ =>
        if running then
          let (value, next) ← eval .statement here
          if value.isBreak then return .null
          else if value.isSignal then return value
          else runCases eval subject count running next
        else
          let next ← skipCases here
          runCases eval subject count running next

/-- Runs the `switch` statement whose subject is at a cursor. -/
def runSwitch (eval : Evaluator) (cursor : Cursor) : Eval (Value × Cursor) := do
  let (text, headed) ← Eval.ofRead (cursor.readBalanced '(' ')')
  let subject ← evaluateAs eval .subject headed.site text
  let (body, behind) ← Eval.ofRead (headed.readBalanced '{' '}')
  let cases := behind.child body
  -- Each label or statement takes at least one character.
  let value ← runCases eval subject (cases.left + 1) false cases
  return (value, behind)

end ScriptEngine

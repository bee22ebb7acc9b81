import ScriptEngine.Eval.Statement

/-! Expressions: operators by precedence, operands, and the steps behind them. -/

namespace ScriptEngine

/-- What joins two operands. -/
inductive Operator where
  | or
  | and
  | binary (op : BinaryOp)
  deriving DecidableEq, Repr

namespace Operator

/-- The spelling of an operator. -/
def symbol : Operator → String
  | .or => "||"
  | .and => "&&"
  | .binary op => op.symbol

/-- The operators from the loosest to the tightest. Those on one level are looked for in order. -/
def levels : List (List Operator) := [
  [.or],
  [.and],
  [.binary .equal, .binary .notEqual],
  [.binary .lessOrEqual, .binary .greaterOrEqual, .binary .less, .binary .greater],
  [.binary .add, .binary .subtract],
  [.binary .multiply, .binary .divide, .binary .modulo]]

/-- Whether a character makes an action's token out of an operator in front of it. -/
def fuses (operator : Operator) (next : Char) : Bool :=
  match operator with
  | .binary .add => next == '=' || next == '+'
  | .binary .subtract => next == '=' || next == '-'
  | .binary .multiply => next == '='
  | .binary .divide => next == '='
  | .binary .modulo => next == '='
  | _ => false

end Operator

/-- The operator of a level at a cursor. -/
def Cursor.operator? (cursor : Cursor) (operators : List Operator) : Option Operator := do
  let operator ← operators.find? fun operator => cursor.startsWith operator.symbol
  match cursor.peek operator.symbol.length with
  | some next => if operator.fuses next then none else some operator
  | none => some operator

/-- The truth of the operand at a cursor. -/
def truthOf (operand : Cursor → Eval (Value × Cursor)) (cursor : Cursor) : Eval (Value × Cursor) := do
  let (value, next) ← operand cursor
  return (.ofBool (← Eval.use .operand value).truthy, next)

/-- Joins the operand in front of an operator with the one behind it, which `operand` evaluates. An
operand that cannot change the result is skipped. -/
def joinOperand (operand : Cursor → Eval (Value × Cursor)) (left : Value) (operator : Operator)
    (behind : Cursor) : Eval (Value × Cursor) := do
  let left ← Eval.use .operand left
  match operator with
  | .or =>
    if left.truthy then return (.ofBool true, behind.skipOperand ["||"])
    else truthOf operand behind
  | .and =>
    if !left.truthy then return (.ofBool false, behind.skipOperand ["&&", "||"])
    else truthOf operand behind
  | .binary op =>
    let (right, next) ← operand behind
    return (← Eval.ofResult (op.apply left (← Eval.use .operand right)), next)

/-- Joins at most `count` further operands of one level from left to right, and all of them. -/
def joinOperands (operators : List Operator) (operand : Cursor → Eval (Value × Cursor)) :
    Nat → Value → Cursor → Eval (Value × Cursor)
  | 0, _, _ => throw .exhausted
  | count + 1, left, cursor => do
    let here := cursor.skipSpaces
    match here.operator? operators with
    | none => return (left, here)
    | some operator =>
      let (value, next) ←
        joinOperand operand left operator (here.advanceBy operator.symbol.length)
      joinOperands operators operand count value next

/-- Evaluates the operands of the given levels, the loosest one first. -/
def evaluateLevels (operand : Cursor → Eval (Value × Cursor)) :
    List (List Operator) → Cursor → Eval (Value × Cursor)
  | [], cursor => operand cursor
  | operators :: tighter, cursor => do
    let (first, behind) ← evaluateLevels operand tighter cursor
    -- An operator takes at least one character.
    joinOperands operators (evaluateLevels operand tighter) (behind.left + 1) first behind

/-- An operator in front of its operand. -/
inductive Sign where
  | not
  | negate
  deriving DecidableEq, Repr

/-- Applies an operator to its operand. -/
def Sign.apply (sign : Sign) (value : Value) : Result Value :=
  match sign, value.data with
  | .not, _ => .ok (.ofBool !value.truthy)
  | .negate, .number number => .ok (.number (-number))
  | .negate, _ => fail (.typeMismatch .numberToNegate value.typeName)

/-- The sign at a cursor, unless it is part of a longer token. -/
def Cursor.sign? (cursor : Cursor) : Option Sign :=
  match cursor.current, cursor.peek 1 with
  | some '!', next => if next = some '=' then none else some .not
  | some '-', next => if next = some '-' ∨ next = some '=' then none else some .negate
  | _, _ => none

/-- Reads at most `count` signs, the outermost first. -/
def Cursor.readSigns : Nat → Cursor → List Sign × Cursor
  | 0, cursor => ([], cursor.skipSpaces)
  | count + 1, cursor =>
    let here := cursor.skipSpaces
    match here.sign? with
    | some sign =>
      let (signs, behind) := readSigns count here.advance
      (sign :: signs, behind)
    | none => ([], here)

/-- Applies signs to a value, the innermost first. -/
def applySigns (value : Value) : List Sign → Result Value
  | [] => .ok value
  | sign :: inner => do sign.apply (← applySigns value inner)

/-- Evaluates what a name stands for at a cursor, with the arguments that follow it. -/
def evaluateHandler (eval : Evaluator) (handler : Handler) (cursor : Cursor) :
    Eval (Value × Cursor) := do
  match handler with
  | .keyword keyword => do
    Eval.note (.embedded keyword cursor)
    runKeyword eval keyword cursor
  | .variable value => return (value, cursor)
  | .native native =>
    let (args, behind) ← readArgs eval cursor
    return (← callNative eval behind.site native (args.map (·.value)), behind)
  | .function function =>
    let (args, behind) ← readArgs eval cursor
    let engine ← get
    let this := if function.owner.isSome then engine.valueOf? "this" behind.file else none
    return (← callFunction eval function args this, behind)
  | .compiled function =>
    let (args, behind) ← readArgs eval cursor
    return (← callCompiled function (args.map (·.value)), behind)
  | .classDef definition =>
    let (args, behind) ← readArgs eval cursor
    return (← instantiate eval definition args, behind)
  | .action action => Eval.refuse cursor (.unexpected action.token)

/-- The value of a word that names a constant. -/
def constant? : String → Option Value
  | "true" => some (.ofBool true)
  | "false" => some (.ofBool false)
  | "null" => some .null
  | _ => none

/-- An operand with the place that it was read from, if it is a variable, and the cursor behind. -/
abbrev Operand := Value × Option Place × Cursor

/-- Evaluates the name at a cursor. -/
def evaluateName (eval : Evaluator) (cursor : Cursor) : Eval Operand := do
  let engine ← get
  let (word, behindWord) := cursor.readToken
  match constant? word with
  | some value => return (value, none, behindWord)
  | none =>
    let (name, behind) := cursor.readQualified engine.symbols
    match engine.resolve? name behind.file with
    | some (.variable value) => return (value, some { name }, behind)
    | some handler =>
      let (value, next) ← evaluateHandler eval handler behind
      return (value, none, next)
    | none => Eval.throwCause (.unknownSymbol name)

/-- Evaluates the elements of an array that `parts` list. -/
def evaluateElements (eval : Evaluator) (site : Site) : List (List Char) → Eval (List Value)
  | [] => return []
  | part :: rest => do
    let element ← evaluateAs eval .element site part
    return element :: (← evaluateElements eval site rest)

/-- The key that a written one denotes: a string literal or the text itself. -/
def readKey (cursor : Cursor) (text : List Char) : Read String :=
  match text with
  | '"' :: _ => return (← (cursor.child text).readString).1
  | _ => .ok (String.ofList text)

/-- Evaluates the entries of a map that `parts` list. -/
def evaluateEntries (eval : Evaluator) (cursor : Cursor) :
    List (List Char) → Eval (List (String × Value))
  | [] => return []
  | part :: rest => do
    match splitTopLevel part ':' with
    | [key, text] =>
      let name ← Eval.ofRead (readKey cursor key)
      let value ← evaluateAs eval .entry cursor.site text
      return (name, value) :: (← evaluateEntries eval cursor rest)
    | _ => Eval.refuse cursor (.malformedEntry (String.ofList part))

/-- Evaluates the operand at a cursor without the steps behind it. -/
def evaluatePrimary (eval : Evaluator) (cursor : Cursor) : Eval Operand := do
  let here := cursor.skipSpaces
  let plain := fun (value : Value) (behind : Cursor) => (value, (none : Option Place), behind)
  match here.current with
  | none => Eval.refuse here .missingExpression
  | some '(' =>
    let (text, behind) ← Eval.ofRead (here.readBalanced '(' ')')
    return plain (← evaluateText eval behind.site text) behind
  | some '"' =>
    let (text, behind) ← Eval.ofRead here.readString
    return plain (.string text) behind
  | some '[' =>
    let (text, behind) ← Eval.ofRead (here.readBalanced '[' ']')
    let elements ← evaluateElements eval behind.site (splitTopLevel text ',')
    return plain (.array elements) behind
  | some '{' =>
    let (text, behind) ← Eval.ofRead (here.readBalanced '{' '}')
    let entries ← evaluateEntries eval behind (splitTopLevel text ',')
    return plain (.map entries) behind
  | some c =>
    if c.isDigit || (c == '.' && ((here.peek 1).map Char.isDigit).getD false) then
      let (number, behind) ← Eval.ofRead here.readNumber
      return plain (.number number) behind
    else if Text.isWordStart c then evaluateName eval here
    else Eval.refuse here (.unexpected c.toString)

/-- Takes at most `count` steps behind an operand and all of them: elements, properties and method
calls. The place follows the steps up to the first call. -/
def evaluateSteps (eval : Evaluator) : Nat → Operand → Eval (Value × Cursor)
  | 0, (value, _, _) => do
    let _ ← Eval.use .superseded value
    throw .exhausted
  | count + 1, (value, place, cursor) => do
    if cursor.current = some '[' then
      let (text, behind) ← Eval.ofReadBehind value (cursor.readBalanced '[' ']')
      let receiver ← Eval.use .receiver value
      let index ← evaluateAs eval .index behind.site text
      let element ← Eval.ofResult (receiver.index index)
      evaluateSteps eval count (element, place.map (·.below (.index index)), behind)
    else if cursor.startsProperty then
      let (name, behind) := cursor.advance.readToken
      if behind.current = some '(' then
        let receiver ← Eval.use .receiver value
        let (args, next) ← readArgs eval behind
        let result ← callMethod eval next.site receiver place name args
        evaluateSteps eval count (result, none, next)
      else
        let receiver ← Eval.use .receiver value
        let property ← getProperty eval behind.site receiver name
        evaluateSteps eval count (property, place.map (·.below (.property name)), behind)
    else return (value, cursor)

/-- Evaluates one operand with the signs in front of it and the steps behind it. -/
def evaluateOperand (eval : Evaluator) (cursor : Cursor) : Eval (Value × Cursor) := do
  let (signs, here) := cursor.readSigns cursor.left
  let (value, place, behind) ← evaluatePrimary eval here
  let (stepped, next) ← evaluateSteps eval (behind.left + 1) (value, place, behind)
  let taken ← if signs.isEmpty then pure stepped else Eval.use .operand stepped
  return (← Eval.ofResult (applySigns taken signs), next)

/-- Evaluates the expression at a cursor, up to the first token that cannot continue it. -/
def evaluateExpression (eval : Evaluator) (cursor : Cursor) : Eval (Value × Cursor) :=
  evaluateLevels (evaluateOperand eval) Operator.levels cursor

end ScriptEngine

import ScriptEngine.Proofs.Cancellation
import ScriptEngine.Proofs.Eval.Position
import ScriptEngine.Proofs.Worker

/-! Statements that call a method of a variable: how they are read, and that the receiver is what the
variable holds in front of the arguments. -/

namespace ScriptEngine

open Cursor

variable {eval : Evaluator} {engine : Engine} {cursor place closed finish : Cursor} {receiver : Value}
  {depth : Nat}

/-- The call of a method of a variable. -/
structure MethodCall where
  name : String
  method : String
  /-- The texts of the arguments. -/
  parts : List (List Char)

variable {call : MethodCall}

/-- At a place stands a statement that calls a method of a variable, with the arguments up to one place
and the end of the statement up to another. -/
structure Engine.ReadsCall (engine : Engine) (place : Cursor) (call : MethodCall)
    (closed finish : Cursor) : Prop where
  starts : ∃ c, place.current = some c ∧ Text.isWordStart c = true
  unreserved : constant? place.readToken.1 = none
  expression : engine.statementKeyword? place.readToken.1 place.file = none
  reads : ∃ named opened text, place.readQualified engine.symbols = (call.name, named) ∧
    named.startsProperty = true ∧ named.advance.readToken = (call.method, opened) ∧
    opened.current = some '(' ∧ opened.readBalanced '(' ')' = .ok (text, closed) ∧
    call.parts = splitTopLevel text ','
  ends : closed.endStatement = .ok finish

/-- Evaluates the arguments of a call and calls the method of a receiver. -/
def MethodCall.run (eval : Evaluator) (site : Site) (call : MethodCall) (receiver : Value) :
    Eval Value := do
  let args ← evaluateArgs eval site call.parts
  callMethod eval site receiver (some { name := call.name }) call.method args

/-! How a call is read. -/

/-- Where a statement ends, an operand does. -/
theorem Cursor.stops_of_endStatement (ended : closed.endStatement = .ok finish) (level : Nat) :
    Stops level closed.skipSpaces.rest := by
  unfold endStatement current at ended
  dsimp only at ended
  -- A semicolon, a brace or the end of the text stands there.
  cases shape : closed.skipSpaces.rest with
  | nil => exact .inl rfl
  | cons c rest =>
    rw [shape, List.head?_cons] at ended
    split at ended
    case h_1 same =>
      cases same
      exact .inr (.inl rfl)
    case h_2 none => cases none
    case h_3 same =>
      cases same
      exact .inr (.inl rfl)
    case h_4 => cases ended

/-- Spaces in front of the end of a statement make no difference. -/
theorem Cursor.endStatement_skipSpaces (cursor : Cursor) :
    cursor.skipSpaces.endStatement = cursor.endStatement := by
  unfold endStatement
  rw [skipSpaces_skipSpaces]

/-- No step follows where a statement ends. -/
theorem evaluateSteps_ended (ended : closed.endStatement = .ok finish) (value : Value)
    (origin : Option Place) (count : Nat) :
    evaluateSteps eval (count + 1) (value, origin, closed) = pure (value, closed) := by
  -- A space would end the steps, and otherwise what ends the statement does.
  by_cases spaced : closed.rest.head? = some ' '
  · have bracket : closed.current ≠ some '[' := by
      rw [current, spaced]
      decide
    have property : closed.startsProperty = false := by simp [startsProperty, current, spaced]
    rw [evaluateSteps, if_neg bracket, property]
    rfl
  · have stops := stops_of_endStatement ended 6
    rw [skipSpaces_eq spaced] at stops
    exact evaluateSteps_stops stops count

/-- A property starts with a point, behind which something is left. -/
theorem Cursor.startsProperty_left (property : cursor.startsProperty = true) :
    cursor.current = some '.' ∧ ∃ count, cursor.left = count + 1 := by
  simp only [startsProperty, Bool.and_eq_true, beq_iff_eq] at property
  refine ⟨property.1, ?_⟩
  obtain ⟨tail, shape⟩ := List.head?_eq_some_iff.mp property.1
  rw [left_eq_length, shape]
  exact ⟨_, rfl⟩

/-- The reading of a group stays in the text. -/
theorem Cursor.readBalanced_source {opener closer : Char} {text : List Char}
    (read : cursor.readBalanced opener closer = .ok (text, closed)) : closed.source = cursor.source := by
  unfold readBalanced at read
  dsimp only at read
  split at read
  case isTrue =>
    split at read
    case h_1 =>
      cases read
      simp
    case h_2 => cases read
  case isFalse => cases read

/-- An operand that a statement ends behind is all of its expression. -/
theorem evaluateFrom_ended {inner : Eval Value} (ended : closed.endStatement = .ok finish)
    (operand : evaluateOperand eval cursor engine = (do let value ← inner; return (value, closed)) engine)
    {level : Nat} (bound : level ≤ 6) :
    ∃ behind, behind.endStatement = .ok finish ∧
      evaluateFrom eval level cursor engine = (do let value ← inner; return (value, behind)) engine := by
  -- The induction goes down from the operands without operators.
  induction bound using Nat.decreasingInduction with
  | self => exact ⟨closed, ended, operand⟩
  | of_succ level below ih =>
    obtain ⟨behind, endedBehind, ran⟩ := ih
    have stops := stops_of_endStatement endedBehind level
    refine ⟨behind.skipSpaces, (endStatement_skipSpaces behind).trans endedBehind, ?_⟩
    rw [evaluateFrom_eq below]
    refine (Eval.bind_congr_at ran _).trans ?_
    rw [bind_assoc]
    refine congrArg (fun step : Eval (Value × Cursor) => step engine) (congrArg (inner >>= ·) ?_)
    funext value
    rw [pure_bind, joinOperands, stops.operator?_eq_none (Nat.le_refl _)]

/-- A statement that starts with a word is run by that. -/
theorem runStatement_word {c : Char} (here : cursor.skipSpaces.current = some c)
    (starts : Text.isWordStart c = true) :
    runStatement eval cursor = (do
      Eval.checkCancelled
      modify (·.startStatement cursor.skipSpaces.site)
      ScriptEngine.runWord eval cursor.skipSpaces) := by
  -- A word starts with none of the characters that make a statement something else.
  have apart : c ∉ [';', '{', '+', '-'] := not_mem_of_none (by decide) starts
  simp only [List.mem_cons, List.not_mem_nil, or_false, not_or] at apart
  obtain ⟨semicolon, brace, plus, minus⟩ := apart
  have unstepped : (cursor.skipSpaces.startsWith "++" || cursor.skipSpaces.startsWith "--") = false := by
    obtain ⟨tail, shape⟩ := List.head?_eq_some_iff.mp here
    simp [startsWith, shape, List.isPrefixOf, Ne.symm plus, Ne.symm minus]
  unfold runStatement
  dsimp only
  rw [here]
  simp only [unstepped, starts, if_true, Bool.false_eq_true, if_false]

/-- Where no end is asked for, a look for such a request changes nothing else. -/
theorem checkCancelled_goesOn {α : Type} {next : Unit → Eval α} (unasked : engine.look.cancelled = false) :
    (Eval.checkCancelled >>= next) engine = next ⟨⟩ engine.look := by
  have looks : Eval.checkCancelled engine = .finished (.ok ⟨⟩) engine.look := by
    show (do if (← get).cancelled then Eval.note .interrupted; Eval.throwCause .interrupted : Eval Unit)
      engine.look = _
    rw [Eval.get_bind, unasked]
    rfl
  exact Eval.bind_ok looks next

namespace Engine.ReadsCall

/-- Nothing but the names of the interpreter decides how a call is read. -/
theorem congr {other : Engine} (reads : engine.ReadsCall place call closed finish)
    (stack : other.stack = engine.stack) (symbols : other.symbols = engine.symbols) :
    other.ReadsCall place call closed finish where
  starts := reads.starts
  unreserved := reads.unreserved
  expression := by
    have same := reads.expression
    unfold statementKeyword? at same ⊢
    rwa [resolve?_congr stack symbols]
  reads := symbols ▸ reads.reads
  ends := reads.ends

/-- A call starts without spaces. -/
theorem tight (reads : engine.ReadsCall place call closed finish) : place.skipSpaces = place := by
  obtain ⟨c, here, starts⟩ := reads.starts
  refine skipSpaces_eq ?_
  rw [← current, here]
  rintro ⟨⟩
  revert starts
  decide

/-- The call stays in the file that it starts in. -/
theorem sameFile (reads : engine.ReadsCall place call closed finish) : closed.file = place.file := by
  obtain ⟨named, opened, text, qualified, _, method, _, args, _⟩ := reads.reads
  have first := (readQualified_passes engine.symbols place).1
  have second := named.advance.readToken_source
  rw [qualified] at first
  rw [method, advance_source] at second
  unfold Cursor.file
  rw [readBalanced_source args, second, first]

/-- The variable of a call is read as an operand with its place. -/
theorem evaluatePrimary {named : Cursor} (reads : engine.ReadsCall place call closed finish)
    (qualified : place.readQualified engine.symbols = (call.name, named))
    (bound : engine.resolve? call.name place.file = some (.variable receiver)) :
    ScriptEngine.evaluatePrimary eval place engine =
      .finished (.ok (receiver, some { name := call.name }, named)) engine := by
  obtain ⟨c, here, starts⟩ := reads.starts
  have first : place.rest = [c] ++ place.rest.tail := by
    obtain ⟨tail, shape⟩ := List.head?_eq_some_iff.mp here
    rw [shape]
    rfl
  have file : named.file = place.file := by
    have same := (readQualified_passes engine.symbols place).1
    rw [qualified] at same
    unfold Cursor.file
    rw [same]
  -- One character is enough to tell that a name stands there.
  have identifier : Text.isIdentifier [c] = true := by simp [Text.isIdentifier, starts]
  rw [evaluatePrimary_word identifier first]
  unfold evaluateName
  rw [Eval.get_bind]
  dsimp only
  rw [reads.unreserved, qualified]
  dsimp only
  rw [file, bound]
  rfl

/-- The receiver of a call is the value that the variable has in front of the arguments. -/
theorem evaluateStepped (reads : engine.ReadsCall place call closed finish)
    (bound : engine.resolve? call.name place.file = some (.variable receiver))
    (unsignalled : receiver.isSignal = false) :
    ScriptEngine.evaluateStepped eval place engine =
      (do let value ← call.run eval closed.site receiver; return (value, closed) :
        Eval (Value × Cursor)) engine := by
  obtain ⟨named, opened, text, qualified, property, method, opens, args, parts⟩ := reads.reads
  obtain ⟨point, count, left⟩ := startsProperty_left property
  -- The parenthesis stands directly behind the name of the method.
  have solid : opened.skipSpaces = opened := by
    refine skipSpaces_eq ?_
    rw [← current, opens]
    decide
  have read : readArgs eval opened =
      (do return (← evaluateArgs eval closed.site call.parts, closed)) := by
    rw [readArgs_read solid opens args, parts]
  have used : Eval.use .receiver receiver = pure receiver := by
    unfold Eval.use
    rw [unsignalled]
    rfl
  have steps : evaluateSteps eval (named.left + 1) (receiver, some { name := call.name }, named) =
      (do let value ← call.run eval closed.site receiver; return (value, closed)) := by
    rw [left, evaluateSteps, if_neg (by rw [point]; decide), property, if_pos rfl, method]
    dsimp only
    rw [opens, if_pos rfl, used, read]
    unfold MethodCall.run
    simp only [pure_bind, bind_assoc, evaluateSteps_ended reads.ends]
  exact (Eval.bind_ok (reads.evaluatePrimary qualified bound) _).trans (congrFun steps engine)

/-- A call is the only operand of its expression. -/
theorem evaluateExpression (eval : Evaluator) (reads : engine.ReadsCall place call closed finish)
    (bound : engine.resolve? call.name place.file = some (.variable receiver))
    (unsignalled : receiver.isSignal = false) :
    ∃ behind, behind.endStatement = .ok finish ∧
      ScriptEngine.evaluateExpression eval place engine =
        (do let value ← call.run eval closed.site receiver; return (value, behind) :
          Eval (Value × Cursor)) engine := by
  obtain ⟨c, here, starts⟩ := reads.starts
  -- No word starts with a sign.
  have unsigned : c ≠ '!' ∧ c ≠ '-' := by
    constructor
    all_goals
      rintro rfl
      revert starts
      decide
  have first : place.skipSpaces.current = some c := by rw [reads.tight, here]
  have signs := readSigns_plain first unsigned place.left
  rw [reads.tight] at signs
  have operand : evaluateOperand eval place engine =
      (do let value ← call.run eval closed.site receiver; return (value, closed) :
        Eval (Value × Cursor)) engine := by
    rw [evaluateOperand_eq signs]
    refine (Eval.bind_congr_at (reads.evaluateStepped bound unsignalled) _).trans ?_
    rw [bind_assoc]
    rfl
  exact evaluateFrom_ended reads.ends operand (Nat.zero_le 6)

/-- A call is no assignment. -/
theorem runAssignment? (reads : engine.ReadsCall place call closed finish) :
    ScriptEngine.runAssignment? eval place engine = .finished (.ok none) engine := by
  obtain ⟨c, here, starts⟩ := reads.starts
  obtain ⟨named, opened, text, qualified, property, method, opens, _⟩ := reads.reads
  obtain ⟨point, count, left⟩ := startsProperty_left property
  -- The parenthesis behind the method tells that this is no place.
  have segments : readSegments named.left [] named = .ok (none, opened) := by
    rw [left, readSegments, if_neg (by rw [point]; decide), property, if_pos rfl, method]
    dsimp only
    rw [if_pos opens]
  have written : place.readPlace engine.symbols = .ok (none, opened) := by
    have first : (place.skipSpaces.current.map Text.isWordStart).getD false = true := by
      rw [reads.tight, here, Option.map_some, starts]
      rfl
    unfold readPlace
    dsimp only
    rw [if_pos first, reads.tight, qualified]
    dsimp only
    rw [segments]
    rfl
  unfold ScriptEngine.runAssignment?
  rw [Eval.get_bind, written]
  rfl

/-- A call is run as an expression. -/
theorem runWord (reads : engine.ReadsCall place call closed finish)
    (bound : engine.resolve? call.name place.file = some (.variable receiver))
    (unsignalled : receiver.isSignal = false) :
    ScriptEngine.runWord (evaluator (depth + 1)) place engine =
      (do let value ← call.run (evaluator depth) closed.site receiver; return (value, finish) :
        Eval (Value × Cursor)) engine := by
  -- The word starts an expression that is no assignment, and ends with the statement.
  obtain ⟨behind, ended, ran⟩ := reads.evaluateExpression (evaluator depth) bound unsignalled
  unfold ScriptEngine.runWord
  dsimp only
  rw [Eval.get_bind, reads.expression]
  refine (Eval.bind_ok reads.runAssignment? _).trans ?_
  unfold runExpression
  refine (Eval.bind_congr_at ran _).trans ?_
  rw [bind_assoc]
  simp only [pure_bind, ended]
  rfl

/-- Where no end is asked for, a statement that is a call runs it. -/
theorem statement (reads : engine.ReadsCall cursor.skipSpaces call closed finish)
    (bound : engine.resolve? call.name cursor.file = some (.variable receiver))
    (unsignalled : receiver.isSignal = false) (unasked : engine.look.cancelled = false) :
    evaluator (depth + 2) .statement cursor engine =
      (do let value ← call.run (evaluator depth) closed.site receiver; return (value, finish) :
        Eval (Value × Cursor)) (engine.look.startStatement cursor.skipSpaces.site) := by
  obtain ⟨c, here, starts⟩ := reads.starts
  obtain ⟨_, _, _, looked⟩ := engine.look_eq
  -- Neither the look for a request nor the note of the statement changes what names stand for.
  have stack : (engine.look.startStatement cursor.skipSpaces.site).stack = engine.stack := by
    rw [looked]
    rfl
  have symbols : (engine.look.startStatement cursor.skipSpaces.site).symbols = engine.symbols := by
    rw [looked]
    rfl
  have sameFile : cursor.skipSpaces.file = cursor.file := by simp [Cursor.file]
  have boundStill : (engine.look.startStatement cursor.skipSpaces.site).resolve? call.name
      cursor.skipSpaces.file = some (.variable receiver) := by
    rw [Engine.resolve?_congr stack symbols, sameFile, bound]
  show runStatement (evaluator (depth + 1)) cursor engine = _
  have noted : (modify (·.startStatement cursor.skipSpaces.site) : Eval PUnit) engine.look =
      .finished (.ok ⟨⟩) (engine.look.startStatement cursor.skipSpaces.site) := rfl
  rw [runStatement_word here starts, checkCancelled_goesOn unasked, Eval.bind_ok noted]
  exact (reads.congr stack symbols).runWord boundStill unsignalled

end Engine.ReadsCall

end ScriptEngine

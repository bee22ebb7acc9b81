import ScriptEngine.Eval.Evaluator
import ScriptEngine.Proofs.Account.Members

/-! Statements and expressions do the same, and keep an account, with evaluators that do; so what is
accounted for of the primitives is accounted for of every phrase. -/

namespace ScriptEngine

variable {account : Account} {eval other : Evaluator}

section Statement

theorem runSignal_agree (signal : Value) (cursor : Cursor) :
    Agree account (runSignal signal cursor) (runSignal signal cursor) :=
  .bind (.ofRead _) fun _ => .done _

theorem takeReturned_agree (value : Value) :
    Agree account (takeReturned value) (takeReturned value) :=
  .ite (.done _) (.use _ _)

variable (agree : eval.Agrees account other)
include agree

theorem runThrow_agree (cursor : Cursor) :
    Agree account (runThrow eval cursor) (runThrow other cursor) :=
  .bind (evaluateAt_agree agree _ _) fun _ => .bind (.ofRead _) fun _ => .failed

theorem runReturn_agree (cursor : Cursor) :
    Agree account (runReturn eval cursor) (runReturn other cursor) := by
  have takes : ∀ (value : Value) (behind : Cursor), Agree account
      (do let returned ← takeReturned value
          return (Value.returnSignal returned, ← Eval.ofReadBehind returned behind.endStatement))
      (do let returned ← takeReturned value
          return (Value.returnSignal returned, ← Eval.ofReadBehind returned behind.endStatement)) :=
    fun value behind => .bind (takeReturned_agree _) fun _ => .bind (.ofReadBehind _ _) fun _ => .done _
  exact .ite (takes _ _) (.bind (agree .expression _) fun ⟨value, behind⟩ => takes value behind)

theorem runQuit_agree (cursor : Cursor) :
    Agree account (runQuit eval cursor) (runQuit other cursor) := by
  have quits : ∀ (code : Int) (behind : Cursor), Agree account
      (do let next ← Eval.ofRead behind.endStatement
          Eval.note (.quit code)
          return (Value.quitSignal code, next))
      (do let next ← Eval.ofRead behind.endStatement
          Eval.note (.quit code)
          return (Value.quitSignal code, next)) :=
    fun code behind => .bind (.ofRead _) fun _ => .bind (.note _) fun _ => .done _
  refine .ite (.bind (.ofRead _) fun ⟨text, behind⟩ => ?_) (quits _ _)
  exact .ite (quits _ _) (.bind (evaluateAs_agree agree _ _ _) fun _ => quits _ _)

theorem runLock_agree (cursor : Cursor) :
    Agree account (runLock eval cursor) (runLock other cursor) :=
  .bind (.ofRead _) fun _ => .bind (.ofRead _) fun _ =>
    .bind (.inRegion (runText_agree agree _ _)) fun _ => .done _

theorem runNew_agree (cursor : Cursor) : Agree account (runNew eval cursor) (runNew other cursor) := by
  refine .peek fun seen => ?_
  dsimp only
  split
  · -- The arguments are read before it is known what is created.
    exact .failed
  · refine .bind (readArgs_agree agree _) fun ⟨args, behind⟩ => .look fun engine admits => ?_
    dsimp only
    split
    · exact Agree.bind (instantiate_agree agree _ _) (fun _ => .done _) engine admits
    · split
      · exact .host fun state => .replace ⟨rfl, rfl, rfl⟩ admits (.done _)
      · exact .finished (account.fails rfl)

/-- What a keyword starts does the same. -/
theorem runKeyword_agree (keyword : Keyword) (cursor : Cursor) :
    Agree account (runKeyword eval keyword cursor) (runKeyword other keyword cursor) := by
  cases keyword with
  | ifKeyword => exact runChain_agree agree _ _
  | whileKeyword => exact runWhile_agree agree _
  | doKeyword => exact runDo_agree agree _
  | forKeyword => exact runFor_agree agree _
  | switchKeyword => exact runSwitch_agree agree _
  | tryKeyword => exact runTry_agree agree _
  | elifKeyword | elseKeyword | caseKeyword | defaultKeyword | catchKeyword => exact .failed
  | throwKeyword => exact runThrow_agree agree _
  | returnKeyword => exact runReturn_agree agree _
  | breakKeyword | continueKeyword => exact runSignal_agree _ _
  | quitKeyword => exact runQuit_agree agree _
  | functionKeyword => exact declareFunction_agree _
  | cfunctionKeyword => exact declareCompiled_agree _
  | classKeyword => exact declareClass_agree agree _
  | namespaceKeyword => exact runNamespace_agree agree _
  | varKeyword => exact runVar_agree agree _
  | enumKeyword => exact declareEnum_agree agree _
  | newKeyword => exact runNew_agree agree _
  | lockKeyword => exact runLock_agree agree _
  | threadKeyword | spawnKeyword => exact runWorker_agree _ _

theorem evaluateSegments_agree (site : Site) (segments : List WrittenSegment) :
    Agree account (evaluateSegments eval site segments) (evaluateSegments other site segments) := by
  -- The induction is on the steps that are left.
  induction segments with
  | nil => exact .done _
  | cons segment rest ih =>
    cases segment with
    | index text => exact .bind (evaluateAs_agree agree _ _ _) fun _ => .bind ih fun _ => .done _
    | property name => exact .bind ih fun _ => .done _

theorem WrittenPlace.evaluate_agree (site : Site) (place : WrittenPlace) :
    Agree account (place.evaluate eval site) (place.evaluate other site) :=
  .bind (evaluateSegments_agree agree _ _) fun _ => .done _

theorem runAssignment?_agree (cursor : Cursor) :
    Agree account (runAssignment? eval cursor) (runAssignment? other cursor) := by
  refine .peek fun seen => .bind (.ofRead _) fun ⟨written, behind⟩ => ?_
  cases written with
  | none => exact .done _
  | some written =>
    dsimp only
    split
    · exact .done _
    · exact .bind (written.evaluate_agree agree _) fun _ =>
        .bind (applyAction_agree agree _ _ _) fun _ => .bind (.ofRead _) fun _ => .done _

theorem runStep_agree (cursor : Cursor) :
    Agree account (runStep eval cursor) (runStep other cursor) := by
  refine .peek fun seen => ?_
  dsimp only
  split
  · exact .failed
  · refine .bind (.ofRead _) fun ⟨written, behind⟩ => ?_
    cases written with
    | none => exact .failed
    | some written =>
      exact .bind (written.evaluate_agree agree _) fun _ =>
        .bind (applyAction_agree agree _ _ _) fun _ => .bind (.ofRead _) fun _ => .done _

theorem runExpression_agree (cursor : Cursor) :
    Agree account (runExpression eval cursor) (runExpression other cursor) :=
  .bind (agree .expression _) fun _ => .bind (.ofReadBehind _ _) fun _ => .done _

theorem runWord_agree (cursor : Cursor) :
    Agree account (runWord eval cursor) (runWord other cursor) := by
  refine .peek fun seen => ?_
  split
  · exact runKeyword_agree agree _ _
  · refine .bind (runAssignment?_agree agree _) fun found => ?_
    cases found with
    | none => exact runExpression_agree agree _
    | some finished => exact .done _

/-- A statement does the same. -/
theorem runStatement_agree (cursor : Cursor) :
    Agree account (runStatement eval cursor) (runStatement other cursor) := by
  refine .bind .checkCancelled fun _ => .bind (.changed fun _ => ⟨rfl, rfl, rfl⟩) fun _ => ?_
  split
  · exact .done _
  · exact .done _
  · exact .bind (.ofRead _) fun _ => .bind (runText_agree agree _ _) fun _ => .done _
  · split
    · exact runStep_agree agree _
    · split
      · exact runWord_agree agree _
      · exact runExpression_agree agree _

end Statement

section Expression

variable {operand operand' : Cursor → Eval (Value × Cursor)}

theorem truthOf_agree (operands : ∀ cursor, Agree account (operand cursor) (operand' cursor))
    (cursor : Cursor) : Agree account (truthOf operand cursor) (truthOf operand' cursor) :=
  .bind (operands cursor) fun _ => .bind (.use _ _) fun _ => .done _

theorem joinOperand_agree (operands : ∀ cursor, Agree account (operand cursor) (operand' cursor))
    (left : Value) (operator : Operator) (behind : Cursor) :
    Agree account (joinOperand operand left operator behind)
      (joinOperand operand' left operator behind) := by
  refine .bind (.use _ _) fun left => ?_
  cases operator with
  | or => exact .ite (.done _) (truthOf_agree operands _)
  | and => exact .ite (.done _) (truthOf_agree operands _)
  | binary op =>
    exact .bind (operands _) fun _ => .bind (.use _ _) fun _ =>
      .bind (.ofResult (op.bare_apply _ _)) fun _ => .done _

theorem joinOperands_agree (operators : List Operator)
    (operands : ∀ cursor, Agree account (operand cursor) (operand' cursor)) (count : Nat)
    (left : Value) (cursor : Cursor) :
    Agree account (joinOperands operators operand count left cursor)
      (joinOperands operators operand' count left cursor) := by
  -- The induction is on the number of operands that may still follow.
  induction count generalizing left cursor with
  | zero => exact .exhausted
  | succ count ih =>
    unfold joinOperands
    dsimp only
    split
    · exact .done _
    · exact .bind (joinOperand_agree operands _ _ _) fun _ => ih _ _

theorem evaluateLevels_agree (operands : ∀ cursor, Agree account (operand cursor) (operand' cursor))
    (levels : List (List Operator)) (cursor : Cursor) :
    Agree account (evaluateLevels operand levels cursor) (evaluateLevels operand' levels cursor) := by
  -- The induction is on the levels that are left.
  induction levels generalizing cursor with
  | nil => exact operands cursor
  | cons operators tighter ih =>
    exact .bind (ih cursor) fun _ => joinOperands_agree operators ih _ _ _

variable (agree : eval.Agrees account other)
include agree

theorem evaluateHandler_agree (handler : Handler) (cursor : Cursor) :
    Agree account (evaluateHandler eval handler cursor) (evaluateHandler other handler cursor) := by
  cases handler with
  | keyword keyword => exact .bind (.note _) fun _ => runKeyword_agree agree _ _
  | «variable» value => exact .done _
  | native native =>
    exact .bind (readArgs_agree agree _) fun _ => .bind (callNative_agree agree _ _ _) fun _ => .done _
  | function function =>
    exact .bind (readArgs_agree agree _) fun _ => .peek fun _ =>
      .bind (callFunction_agree agree _ _ _) fun _ => .done _
  | compiled function =>
    exact .bind (readArgs_agree agree _) fun _ => .bind (callCompiled_agree _ _) fun _ => .done _
  | classDef definition =>
    exact .bind (readArgs_agree agree _) fun _ => .bind (instantiate_agree agree _ _) fun _ => .done _
  | action action => exact .failed

theorem evaluateName_agree (cursor : Cursor) :
    Agree account (evaluateName eval cursor) (evaluateName other cursor) := by
  refine .peek fun seen => ?_
  dsimp only
  split
  · exact .done _
  · split
    · exact .done _
    · exact .bind (evaluateHandler_agree agree _ _) fun _ => .done _
    · exact .failed

theorem evaluateElements_agree (site : Site) (parts : List (List Char)) :
    Agree account (evaluateElements eval site parts) (evaluateElements other site parts) := by
  -- The induction is on the elements that are left.
  induction parts with
  | nil => exact .done _
  | cons part rest ih => exact .bind (evaluateAs_agree agree _ _ _) fun _ => .bind ih fun _ => .done _

theorem evaluateEntries_agree (cursor : Cursor) (parts : List (List Char)) :
    Agree account (evaluateEntries eval cursor parts) (evaluateEntries other cursor parts) := by
  -- The induction is on the entries that are left.
  induction parts with
  | nil => exact .done _
  | cons part rest ih =>
    unfold evaluateEntries
    split
    · exact .bind (.ofRead _) fun _ => .bind (evaluateAs_agree agree _ _ _) fun _ =>
        .bind ih fun _ => .done _
    · exact .failed

theorem evaluatePrimary_agree (cursor : Cursor) :
    Agree account (evaluatePrimary eval cursor) (evaluatePrimary other cursor) := by
  unfold evaluatePrimary
  dsimp only
  split
  · exact .failed
  · exact .bind (.ofRead _) fun _ => .bind (evaluateText_agree agree _ _) fun _ => .done _
  · exact .bind (.ofRead _) fun _ => .done _
  · exact .bind (.ofRead _) fun _ => .bind (evaluateElements_agree agree _ _) fun _ => .done _
  · exact .bind (.ofRead _) fun _ => .bind (evaluateEntries_agree agree _ _) fun _ => .done _
  · split
    · exact .bind (.ofRead _) fun _ => .done _
    · split
      · exact evaluateName_agree agree _
      · exact .failed

theorem evaluateSteps_agree (count : Nat) (operand : Operand) :
    Agree account (evaluateSteps eval count operand) (evaluateSteps other count operand) := by
  -- The induction is on the number of steps that may still follow.
  induction count generalizing operand with
  | zero => exact .bind (.use _ _) fun _ => .exhausted
  | succ count ih =>
    obtain ⟨value, place, cursor⟩ := operand
    unfold evaluateSteps
    dsimp only
    split
    · exact .bind (.ofReadBehind _ _) fun _ => .bind (.use _ _) fun _ =>
        .bind (evaluateAs_agree agree _ _ _) fun _ =>
          .bind (.ofResult (Value.bare_index _ _)) fun _ => ih _
    · split
      · split
        · exact .bind (.use _ _) fun _ => .bind (readArgs_agree agree _) fun _ =>
            .bind (callMethod_agree agree _ _ _ _ _) fun _ => ih _
        · exact .bind (.use _ _) fun _ => .bind (getProperty_agree agree _ _ _) fun _ => ih _
      · exact .done _

theorem evaluateOperand_agree (cursor : Cursor) :
    Agree account (evaluateOperand eval cursor) (evaluateOperand other cursor) := by
  refine .bind (evaluatePrimary_agree agree _) fun ⟨value, place, behind⟩ => ?_
  refine .bind (evaluateSteps_agree agree _ _) fun ⟨stepped, next⟩ => ?_
  have signed : ∀ taken : Value, Agree account
      (do return (← Eval.ofResult (applySigns taken (cursor.readSigns cursor.left).1), next))
      (do return (← Eval.ofResult (applySigns taken (cursor.readSigns cursor.left).1), next)) :=
    fun taken => .bind (.ofResult (bare_applySigns _ _)) fun _ => .done _
  exact .ite (signed _) (.bind (.use _ _) signed)

/-- An expression does the same. -/
theorem evaluateExpression_agree (cursor : Cursor) :
    Agree account (evaluateExpression eval cursor) (evaluateExpression other cursor) :=
  evaluateLevels_agree (evaluateOperand_agree agree) _ cursor

end Expression

/-- Every phrase keeps every account. -/
theorem evaluator_agrees (account : Account) (depth : Nat) :
    (evaluator depth).Agrees account (evaluator depth) := by
  -- The induction is on the nesting of the phrases.
  induction depth with
  | zero => exact fun _ _ => .exhausted
  | succ depth ih =>
    intro phrase cursor
    cases phrase with
    | expression => exact evaluateExpression_agree ih cursor
    | statement => exact runStatement_agree ih cursor

end ScriptEngine

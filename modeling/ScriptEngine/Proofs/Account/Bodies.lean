import ScriptEngine.Eval.Class
import ScriptEngine.Eval.Declaration
import ScriptEngine.Eval.Loop
import ScriptEngine.Eval.Branch
import ScriptEngine.Eval.TryCatch
import ScriptEngine.Eval.Member
import ScriptEngine.Proofs.Account.Agree

/-! Running text does the same, and keeps an account, with evaluators that do: each construct hands the
account that it is in on to what is nested in it, and a call enters one for its body. -/

namespace ScriptEngine

variable {account : Account} {eval other : Evaluator}

section Text

variable (agree : eval.Agrees account other)
include agree

theorem evaluateAll_agree (cursor : Cursor) :
    Agree account (evaluateAll eval cursor) (evaluateAll other cursor) := by
  refine .bind (agree .expression cursor) fun ⟨value, behind⟩ => ?_
  dsimp only
  split
  · exact .done _
  · exact .bind (.use _ _) fun _ => .failed

theorem evaluateText_agree (site : Site) (text : List Char) :
    Agree account (evaluateText eval site text) (evaluateText other site text) :=
  evaluateAll_agree agree _

theorem evaluateAs_agree (use : Use) (site : Site) (text : List Char) :
    Agree account (evaluateAs eval use site text) (evaluateAs other use site text) :=
  .bind (evaluateText_agree agree site text) fun value => .use use value

theorem evaluateAt_agree (use : Use) (cursor : Cursor) :
    Agree account (evaluateAt eval use cursor) (evaluateAt other use cursor) :=
  .bind (agree .expression cursor) fun ⟨value, _⟩ => .bind (.use use value) fun _ => .done _

theorem runStatements_agree (count : Nat) (last : Value) (cursor : Cursor) :
    Agree account (runStatements eval count last cursor) (runStatements other count last cursor) := by
  -- The induction is on the number of statements that may still follow.
  induction count generalizing last cursor with
  | zero => exact .exhausted
  | succ count ih =>
    unfold runStatements
    dsimp only
    split
    · exact .done _
    · exact .failed
    · refine .bind (agree .statement _) fun ⟨value, behind⟩ => ?_
      dsimp only
      split
      · exact .done _
      · exact ih value behind

theorem runAll_agree (cursor : Cursor) : Agree account (runAll eval cursor) (runAll other cursor) :=
  runStatements_agree agree _ _ cursor

theorem runText_agree (site : Site) (text : List Char) :
    Agree account (runText eval site text) (runText other site text) :=
  runAll_agree agree _

theorem runScript_agree (source file : String) (isMain : Bool) :
    Agree account (runScript eval source file isMain) (runScript other source file isMain) := by
  have runs : Agree account
      (do let value ← runAll eval (← Eval.ofResult (Cursor.ofSource source file))
          return value.outcome)
      (do let value ← runAll other (← Eval.ofResult (Cursor.ofSource source file))
          return value.outcome) :=
    .bind (.ofResult (Cursor.bare_ofSource _ _)) fun cursor =>
      .bind (runAll_agree agree cursor) fun _ => .done _
  unfold runScript
  dsimp only
  -- A main script is noted as such before it runs.
  split
  · exact .bind (.changed fun _ => ⟨rfl, rfl, rfl⟩) fun _ => runs
  · exact runs

theorem includeFile_agree (site : Site) (path : String) :
    Agree account (includeFile eval site path) (includeFile other site path) := by
  refine .peek fun seen => ?_
  split
  · exact runScript_agree agree _ _ _
  · exact .failed

theorem evaluateArgs_agree (site : Site) (parts : List (List Char)) :
    Agree account (evaluateArgs eval site parts) (evaluateArgs other site parts) := by
  -- The induction is on the arguments that are left.
  induction parts with
  | nil => exact .done _
  | cons part rest ih =>
    exact .bind (evaluateAs_agree agree _ _ _) fun _ => .bind ih fun _ => .done _

theorem readArgs_agree (cursor : Cursor) :
    Agree account (readArgs eval cursor) (readArgs other cursor) := by
  unfold readArgs
  dsimp only
  split
  · exact .bind (.ofRead _) fun _ => .bind (evaluateArgs_agree agree _ _) fun _ => .done _
  · exact .done _

end Text

section Call

/-- Binding the surplus arguments of a call has nothing to do with calls. -/
theorem bindExtras_agree (file : String) (extras : List (String × Value)) :
    Agree account
      (forIn extras PUnit.unit fun entry _ => do
        modify (·.defineLocal entry.1 (.variable entry.2) file)
        return .yield ⟨⟩)
      (forIn extras PUnit.unit fun entry _ => do
        modify (·.defineLocal entry.1 (.variable entry.2) file)
        return .yield ⟨⟩) := by
  -- The induction is on the arguments that are left.
  induction extras with
  | nil => exact .done _
  | cons entry rest ih =>
    rw [List.forIn_cons, bind_assoc]
    exact .bind (.defineLocal _ _ _) fun _ => ih

/-- Taking the fields of a receiver has nothing to do with calls. -/
theorem seedMethod_agree (this : Value) : Agree account (seedMethod this) (seedMethod this) := by
  refine .look fun engine admits => ?_
  split
  · exact .finished (account.refl engine)
  · exact .replace ⟨rfl, rfl, rfl⟩ admits (.done _)

/-- Giving the fields of a receiver back has nothing to do with calls. -/
theorem Engine.quiet_writeBack (engine : Engine) (this : Value) (seeded : OrderedMap Value)
    (params : List Param) : Quiet engine (engine.writeBack this seeded params) := by
  unfold Engine.writeBack
  split <;> exact ⟨rfl, rfl, rfl⟩

variable (agree : eval.Agrees account other)
include agree

theorem bindParams_agree (function : ScriptFunction) (slots : List (Param × Option Value)) :
    Agree account (bindParams eval function slots) (bindParams other function slots) := by
  -- The induction is on the parameters that are left.
  induction slots with
  | nil => exact .done _
  | cons slot rest ih =>
    obtain ⟨param, slot⟩ := slot
    have binds : ∀ value : Value, Agree account
        (do modify (·.defineLocal param.name (.variable value) function.site.file)
            bindParams eval function rest)
        (do modify (·.defineLocal param.name (.variable value) function.site.file)
            bindParams other function rest) :=
      fun value => .bind (.defineLocal _ _ _) fun _ => ih
    unfold bindParams
    split
    · exact binds _
    · exact .bind (evaluateAs_agree agree _ _ _) binds
    · exact .failed

theorem runBody_agree (function : ScriptFunction) (bound : Bound) :
    Agree account (runBody eval function bound) (runBody other function bound) :=
  .bind (bindParams_agree agree function _) fun _ =>
    .bind (bindExtras_agree _ _) fun _ => runText_agree agree _ _

theorem runMethod_agree (function : ScriptFunction) (bound : Bound) (this : Value) :
    Agree account (runMethod eval function bound this) (runMethod other function bound this) :=
  .bind (seedMethod_agree this) fun _ =>
    .closing (runBody_agree agree function bound) fun engine => engine.quiet_writeBack _ _ _

theorem runCallee_agree (function : ScriptFunction) (bound : Bound) (this : Option Value) :
    Agree account (runCallee eval function bound this) (runCallee other function bound this) := by
  cases this with
  | none => exact runBody_agree agree function bound
  | some this => exact runMethod_agree agree function bound this

/-- The body of a call that is entered runs with one more call. -/
theorem callFunction_agree (function : ScriptFunction) (args : List Arg) (this : Option Value) :
    Agree account (callFunction eval function args this) (callFunction other function args this) := by
  refine .bind (.ofResult (bare_bindArgs _ _ _)) fun bound => ?_
  rw [← bind_assoc, ← bind_assoc]
  exact .bind (.enterCall (.withFrame (runCallee_agree agree function bound this))) fun _ => .done _

end Call

section Loop

theorem admitPass_agree (left : Nat) : Agree account (admitPass left) (admitPass left) := by
  -- A pass may wait for its turn before it is admitted.
  refine .bind ?_ fun _ => .bind .checkCancelled fun _ => ?_
  · refine .peek fun seen => ?_
    split
    · exact .pause .turn
    · exact .done _
  · split
    · exact .peek fun _ => .failed
    · exact .changed fun _ => ⟨rfl, rfl, rfl⟩

variable {condition condition' : Eval Bool} {pass pass' : Eval Flow} {step step' : Eval Unit}

theorem Flow.follow_agree {goesOn goesOn' : Eval Value} (flow : Flow)
    (agree : Agree account goesOn goesOn') :
    Agree account (flow.follow goesOn) (flow.follow goesOn') := by
  cases flow with
  | next => exact agree
  | stop => exact .done _
  | exit signal => exact .done _

theorem whileLoop_agree (conditions : Agree account condition condition')
    (passes : Agree account pass pass') (steps : Agree account step step') (left : Nat) :
    Agree account (whileLoop condition pass step left) (whileLoop condition' pass' step' left) := by
  -- The induction is on the passes that the loop may still run.
  induction left with
  | zero =>
    refine .bind conditions fun holds => ?_
    split
    · exact .bind (admitPass_agree 0) fun _ => .done _
    · exact .done _
  | succ left ih =>
    refine .bind conditions fun holds => ?_
    split
    · exact .bind (admitPass_agree _) fun _ => .bind passes fun flow =>
        flow.follow_agree (.bind steps fun _ => ih)
    · exact .done _

theorem doLoop_agree (conditions : Agree account condition condition')
    (passes : Agree account pass pass') (left : Nat) :
    Agree account (doLoop condition pass left) (doLoop condition' pass' left) := by
  -- The induction is on the passes that the loop may still run.
  induction left with
  | zero => exact .bind (admitPass_agree 0) fun _ => .done _
  | succ left ih =>
    refine .bind (admitPass_agree _) fun _ => .bind passes fun flow =>
      flow.follow_agree (.bind conditions fun holds => ?_)
    split
    · exact ih
    · exact .done _

theorem eachLoop_agree {visit : Value → Eval Unit}
    (visits : ∀ value, Agree account (visit value) (visit value)) (passes : Agree account pass pass')
    (left : Nat) (elements : List Value) :
    Agree account (eachLoop visit pass left elements) (eachLoop visit pass' left elements) := by
  -- The induction is on the passes that the loop may still run.
  induction left generalizing elements with
  | zero =>
    cases elements with
    | nil => exact .done _
    | cons element rest => exact .bind (admitPass_agree 0) fun _ => .done _
  | succ left ih =>
    cases elements with
    | nil => exact .done _
    | cons element rest =>
      exact .bind (admitPass_agree _) fun _ => .bind (visits element) fun _ =>
        .bind passes fun flow => flow.follow_agree (ih rest)

variable (agree : eval.Agrees account other)
include agree

theorem runPass_agree (site : Site) (body : List Char) :
    Agree account (runPass eval site body) (runPass other site body) :=
  .bind (runText_agree agree site body) fun _ => .done _

theorem holds_agree (site : Site) (condition : List Char) :
    Agree account (holds eval site condition) (holds other site condition) := by
  unfold holds
  split
  · exact .done _
  · exact .bind (evaluateAs_agree agree _ _ _) fun _ => .done _

theorem runAside_agree (site : Site) (text : List Char) :
    Agree account (runAside eval site text) (runAside other site text) := by
  unfold runAside
  split
  · exact .bind (runText_agree agree _ _) fun value => .bind (.use _ _) fun _ => .done _
  · exact .done _

theorem runWhile_agree (cursor : Cursor) :
    Agree account (runWhile eval cursor) (runWhile other cursor) := by
  refine .bind (.ofRead _) fun ⟨condition, headed⟩ => .bind (.ofRead _) fun ⟨body, behind⟩ => ?_
  refine .bind (.peek fun _ => .done _) fun passes => .bind ?_ fun _ => .done _
  exact whileLoop_agree (holds_agree agree _ _) (runPass_agree agree _ _) (.done _) passes

theorem runDo_agree (cursor : Cursor) : Agree account (runDo eval cursor) (runDo other cursor) := by
  refine .bind (.ofRead _) fun ⟨body, next⟩ => ?_
  dsimp only
  split
  · exact .failed
  · refine .bind (.ofRead _) fun ⟨condition, headed⟩ => .bind (.ofRead _) fun behind => ?_
    refine .bind (.peek fun _ => .done _) fun passes => .bind ?_ fun _ => .done _
    exact doLoop_agree (holds_agree agree _ _) (runPass_agree agree _ _) passes

theorem runCounted_agree (site : Site) (init condition step body : List Char) :
    Agree account (runCounted eval site init condition step body)
      (runCounted other site init condition step body) := by
  refine .bind (runAside_agree agree _ _) fun _ => .bind (.peek fun _ => .done _) fun passes => ?_
  exact whileLoop_agree (holds_agree agree _ _) (runPass_agree agree _ _) (runAside_agree agree _ _)
    passes

theorem runEach_agree (cursor : Cursor) (header body : List Char) :
    Agree account (runEach eval cursor header body) (runEach other cursor header body) := by
  unfold runEach
  split
  · exact .failed
  · refine .bind (evaluateAs_agree agree _ _ _) fun value => .peek fun seen => ?_
    refine .bind (.ofHost _) fun elements => .bind (.peek fun _ => .done _) fun passes => ?_
    exact eachLoop_agree (fun _ => .defineLocal _ _ _) (runPass_agree agree _ _) passes elements

theorem runFor_agree (cursor : Cursor) : Agree account (runFor eval cursor) (runFor other cursor) := by
  refine .bind (.ofRead _) fun ⟨header, headed⟩ => .bind (.ofRead _) fun ⟨body, behind⟩ => ?_
  dsimp only
  split
  · exact .bind (runCounted_agree agree _ _ _ _ _) fun _ => .done _
  · exact .bind (runEach_agree agree _ _ _) fun _ => .done _
  · exact .failed

end Loop

section Branch

theorem skipCases_agree (cursor : Cursor) : Agree account (skipCases cursor) (skipCases cursor) := by
  refine .bind (.ofRead _) fun next => ?_
  cases next with
  | none => exact .exhausted
  | some next => exact .done _

/-- Binding the names of a handler has nothing to do with calls. -/
theorem bindCaught_agree (file : String) (value : Value) (name : Option String) :
    Agree account (bindCaught file value name) (bindCaught file value name) := by
  cases name with
  | none => exact .done _
  | some name => exact .defineLocal _ _ _

variable (agree : eval.Agrees account other)
include agree

theorem runChain_agree (clauses : Nat) (cursor : Cursor) :
    Agree account (runChain eval clauses cursor) (runChain other clauses cursor) := by
  -- The induction is on the number of conditions that may still follow.
  induction clauses generalizing cursor with
  | zero => exact .exhausted
  | succ clauses ih =>
    refine .bind (.ofRead _) fun ⟨condition, headed⟩ => ?_
    refine .bind (evaluateAs_agree agree _ _ _) fun value => ?_
    dsimp only
    split
    · exact .bind (.ofRead _) fun ⟨body, behind⟩ => .bind (runText_agree agree _ _) fun value =>
        .bind (.ofReadBehind _ _) fun _ => .done _
    · refine .bind (.ofRead _) fun next => ?_
      split
      · exact ih _
      · split
        · exact ih _
        · exact .bind (.ofRead _) fun ⟨body, behind⟩ =>
            .bind (runText_agree agree _ _) fun value => .done _
      · exact .done _

theorem runCases_agree (subject : Value) (count : Nat) (running : Bool) (cursor : Cursor) :
    Agree account (runCases eval subject count running cursor)
      (runCases other subject count running cursor) := by
  -- The induction is on the number of labels and statements that may still follow.
  induction count generalizing running cursor with
  | zero => exact .exhausted
  | succ count ih =>
    unfold runCases
    dsimp only
    split
    · exact .done _
    · split
      · exact .bind (evaluateAt_agree agree _ _) fun ⟨candidate, behind⟩ =>
          .bind (.ofRead _) fun next => ih _ next
      · exact .bind (.ofRead _) fun next => ih _ next
      · split
        · refine .bind (agree .statement _) fun ⟨value, next⟩ => ?_
          dsimp only
          split
          · exact .done _
          · split
            · exact .done _
            · exact ih _ next
        · exact .bind (skipCases_agree _) fun next => ih _ next

theorem runSwitch_agree (cursor : Cursor) :
    Agree account (runSwitch eval cursor) (runSwitch other cursor) := by
  refine .bind (.ofRead _) fun ⟨text, headed⟩ => ?_
  refine .bind (evaluateAs_agree agree _ _ _) fun subject => ?_
  exact .bind (.ofRead _) fun ⟨body, behind⟩ =>
    .bind (runCases_agree agree subject _ _ _) fun _ => .done _

/-- A handler starts with the calls that the body started with. -/
theorem runGuarded_agree (site : Site) (body : List Char) (names : List String)
    (handler : List Char) :
    Agree account (runGuarded eval site body names handler)
      (runGuarded other site body names handler) := by
  have handles : ∀ failure : Failure, Agree account
      (do bindFailure site.file failure names; runText eval site handler)
      (do bindFailure site.file failure names; runText other site handler) :=
    fun failure => .bind (.bind (bindCaught_agree _ _ _) fun _ => bindCaught_agree _ _ _) fun _ =>
      runText_agree agree site handler
  refine .look fun engine admits => AgreeAt.attempt admits (runText_agree agree site body engine admits)
    (fun _ => .done _) fun failure now back => ?_
  dsimp only
  split
  · exact .finished back
  · -- The calls that the failure has left are gone, so that the handler starts where the body did.
    obtain ⟨calls, handled⟩ := account.handles back
    have unwinds : Quiet (now.noteCall .handled)
        (now.unwindTo engine.stack.depth engine.calls.length) := by
      refine ⟨?_, rfl, rfl⟩
      simp [Engine.unwindTo, Engine.noteCall, calls]
    have unwound := account.settles handled unwinds
    exact AgreeAt.after (handles failure _ (account.admitted unwound admits)) unwound

theorem runTry_agree (cursor : Cursor) : Agree account (runTry eval cursor) (runTry other cursor) := by
  refine .bind (.ofRead _) fun ⟨body, next⟩ => ?_
  dsimp only
  split
  · exact .failed
  · refine .bind (.ofRead _) fun ⟨header, headed⟩ => ?_
    dsimp only
    split
    · exact .failed
    · exact .bind (.ofRead _) fun ⟨handler, behind⟩ =>
        .bind (runGuarded_agree agree _ _ _ _) fun _ => .done _

end Branch

end ScriptEngine

import ScriptEngine.Eval.Statement
import ScriptEngine.Proofs.Eval.Branch
import ScriptEngine.Proofs.Eval.Class
import ScriptEngine.Proofs.Eval.Declaration
import ScriptEngine.Proofs.Eval.Loop
import ScriptEngine.Proofs.Eval.Member

/-! How statements proceed. -/

namespace ScriptEngine

variable {strict : Bool} {engine : Engine} {eval : Evaluator}

/-- A `throw` fails. -/
theorem runThrow_yields (lawful : eval.Lawful strict) (tidy : engine.Tidy strict)
    (cursor : Cursor) : Yields strict engine (runThrow eval cursor) engine := by
  refine .bind (evaluateAt_runs lawful tidy .thrown _) fun result now reached _ => ?_
  exact .read (.refl reached.tidy) fun next _ => .failed (.refl reached.tidy)

/-- A `return` yields its signal around the operand; that of a `quit` stays on its way. -/
theorem runReturn_yields (lawful : eval.Lawful strict) (tidy : engine.Tidy strict)
    (cursor : Cursor) : Yields strict engine (runReturn eval cursor) engine := by
  have returns : ∀ {now : Engine} {value : Value} {behind : Cursor},
      HasYielded strict engine (value, behind) now → Yields strict engine (do
        let returned ← takeReturned value
        return (Value.returnSignal returned, ← Eval.ofReadBehind returned behind.endStatement)) now := by
    intro now value behind settled
    unfold takeReturned
    split
    case isTrue quit =>
      rw [pure_bind]
      refine .readBehind settled rfl fun next _ => .settled ?_
      obtain ⟨code, quits⟩ := Option.isSome_iff_exists.mp quit
      refine settled.convert rfl rfl (fun code quits => ?_) (.returnSignal_quit quits)
      rcases quits with rfl | rfl
      · exact .inr rfl
      · cases quit
    case isFalse =>
      refine .use settled rfl fun final reached used => ?_
      -- A signal is noted as returned.
      have settled : HasYielded strict final value final :=
        .inl ⟨.refl reached.tidy, .of_trusted rfl (used.sound.imp_right fun sound =>
          ⟨sound, fun _ same _ => .inr (used.noted (same ▸ rfl))⟩)⟩
      refine .readBehind settled rfl fun next _ => ?_
      refine .done (.refl reached.tidy) (.of_trusted rfl (used.sound.imp_right fun sound =>
        ⟨.returnSignal sound, fun _ same signal => .inr (used.noted ?_)⟩))
      cases same
      exact signal
  unfold runReturn
  dsimp only
  split
  · rw [pure_bind]
    exact returns (.inl ⟨.refl tidy, .of_clean rfl (.inr Value.clean_null)⟩)
  · exact .bindYielded (lawful .expression _ _ tidy) fun ⟨value, behind⟩ now settled =>
      returns settled

/-- A statement that is a keyword yields its signal. -/
theorem runSignal_yields (tidy : engine.Tidy strict) {signal : Value} (trusts : engine.Trusts signal)
    (cursor : Cursor) : Yields strict engine (runSignal signal cursor) engine := by
  refine .read (.refl tidy) fun next _ => ?_
  exact .done (.refl tidy) (.of_trusted rfl (.inr trusts))

/-- A `quit` is on its way when its statement has ended. -/
theorem runQuit_yields (lawful : eval.Lawful strict) (tidy : engine.Tidy strict)
    (cursor : Cursor) : Yields strict engine (runQuit eval cursor) engine := by
  -- The signal is noted at the very end, behind the statement that asks for it.
  have quits : ∀ {now : Engine} {code : Int} {behind : Cursor}, now.Tidy strict →
      Yields strict now (do
        let next ← Eval.ofRead behind.endStatement
        Eval.note (.quit code)
        return (Value.quitSignal code, next)) now := by
    intro now code behind tidy
    refine .read (.refl tidy) fun next _ => ?_
    have pending : HasYielded strict now (Value.quitSignal code, next) (now.note (.quit code)) :=
      .inr ⟨.quitSignal code, code, now, rfl, .inl rfl, .refl tidy, rfl⟩
    exact Step.Ensures.finished (.of_course rfl) pending
  unfold runQuit
  dsimp only
  split
  · refine .read (.refl tidy) fun ⟨text, behind⟩ _ => ?_
    dsimp only
    split
    · rw [pure_bind]
      exact quits tidy
    · refine .bind (evaluateAs_runs lawful tidy .exitCode _ _) fun value now reached _ => ?_
      rw [pure_bind]
      exact quits reached.tidy
  · rw [pure_bind]
    exact quits tidy

/-- A body runs in the locked region. -/
theorem inRegion_yields {α : Type} [Carrier α] {body : Eval α} (tidy : engine.Tidy strict)
    (inner : ∀ {engine : Engine}, engine.Tidy strict → Yields strict engine body engine) :
    Yields strict engine (Eval.inRegion body) engine := by
  -- The region is entered for the body only, however it ends.
  have runs : ∀ {now : Engine}, now.Tidy strict → Yields strict now (do
      modify (·.enterRegion)
      Eval.closing body (·.leaveRegion)) now := by
    intro now tidy
    have entered : now.Adjusts True now.enterRegion :=
      ⟨.refl _, rfl, rfl, rfl, fun _ clean => { clean with }⟩
    have reached := adjusted tidy entered
    refine .change reached ?_
    refine .closing (inner reached.tidy) (Reached.refl reached.tidy).toProgressed
      (fun final ran => ?_) (fun _ _ => rfl) (fun _ => rfl) fun _ _ _ yielded => yielded
    have left : final.Adjusts True final.leaveRegion :=
      ⟨.refl _, rfl, rfl, rfl, fun _ clean => { clean with }⟩
    exact ran.trans (adjusted ran.tidy left).toReached
  refine .look ?_
  dsimp only
  -- Where another thread has the region, it is waited for.
  split
  · refine .pause (.refl tidy) fun now reached _ => ?_
    exact (runs reached.tidy).after reached
  · exact runs tidy

/-- A `lock` yields null or the signal that ends its body. -/
theorem runLock_yields (lawful : eval.Lawful strict) (tidy : engine.Tidy strict)
    (cursor : Cursor) : Yields strict engine (runLock eval cursor) engine := by
  refine .read (.refl tidy) fun headed _ => ?_
  refine .read (.refl tidy) fun ⟨body, behind⟩ _ => ?_
  refine .bindYielded (inRegion_yields tidy fun tidy => runAll_yields lawful tidy _)
    fun value now settled => ?_
  exact .settled (settled.signalOrNull rfl rfl)

/-- The launch of a worker yields its number. -/
theorem runWorker_yields (tidy : engine.Tidy strict) (detached : Bool) (cursor : Cursor) :
    Yields strict engine (runWorker detached cursor) engine := by
  refine .read (.refl tidy) fun ⟨text, behind⟩ _ => ?_
  dsimp only
  split
  · exact .failed (.refl tidy)
  · refine .look ?_
    have reached := adjusted tidy (Engine.launch_adjusts (behind.child text) detached)
    exact .replace reached (.done (.refl reached.tidy) (.of_clean rfl (.inr (Value.clean_ofNat _))))

/-- A `new` yields an object. -/
theorem runNew_yields (lawful : eval.Lawful strict) (tidy : engine.Tidy strict)
    (cursor : Cursor) : Yields strict engine (runNew eval cursor) engine := by
  refine .look ?_
  dsimp only
  split
  · exact .failed (.refl tidy)
  · refine .bind (readArgs_runs lawful tidy _) fun ⟨args, behind⟩ now reached clean => ?_
    refine .look ?_
    split
    case h_1 definition found =>
      -- A class yields an object, and so does a type of the host.
      have definitionClean := reached.tidy.imp_right fun clean => clean.class_clean found
      exact yields_behind behind (instantiate_yields lawful reached.tidy definitionClean clean)
    case h_2 =>
      dsimp only
      split
      · refine .host (.refl reached.tidy) fun state _ => ?_
        have adjusts : now.Adjusts True { now with
            heap := (now.heap.allocate (cursor.readQualified engine.symbols).1 state).1 } :=
          .heap fun _ old => old
        have allocated := adjusted reached.tidy adjusts
        exact .replace allocated
          (.done (.refl allocated.tidy) (.of_clean rfl (.inr (Value.clean_object _))))
      · exact .failed (.refl reached.tidy)

/-- Every keyword yields a trusted value or a `quit`. -/
theorem runKeyword_yields (lawful : eval.Lawful strict) (tidy : engine.Tidy strict)
    (keyword : Keyword) (cursor : Cursor) :
    Yields strict engine (runKeyword eval keyword cursor) engine := by
  cases keyword with
  | ifKeyword => exact runChain_yields lawful _ tidy
  | whileKeyword => exact runWhile_yields lawful tidy cursor
  | doKeyword => exact runDo_yields lawful tidy cursor
  | forKeyword => exact runFor_yields lawful tidy cursor
  | switchKeyword => exact runSwitch_yields lawful tidy cursor
  | tryKeyword => exact runTry_yields lawful tidy cursor
  | elifKeyword | elseKeyword | caseKeyword | defaultKeyword | catchKeyword =>
    exact .failed (.refl tidy)
  | throwKeyword => exact runThrow_yields lawful tidy cursor
  | returnKeyword => exact runReturn_yields lawful tidy cursor
  | breakKeyword => exact runSignal_yields tidy (.of_sound .breakSignal nofun) cursor
  | continueKeyword => exact runSignal_yields tidy (.of_sound .continueSignal nofun) cursor
  | quitKeyword => exact runQuit_yields lawful tidy cursor
  | functionKeyword => exact declareFunction_yields tidy cursor
  | cfunctionKeyword => exact declareCompiled_yields tidy cursor
  | classKeyword => exact declareClass_yields lawful tidy cursor
  | namespaceKeyword => exact runNamespace_yields lawful tidy cursor
  | varKeyword => exact runVar_yields lawful tidy cursor
  | enumKeyword => exact declareEnum_yields lawful tidy cursor
  | newKeyword => exact runNew_yields lawful tidy cursor
  | lockKeyword => exact runLock_yields lawful tidy cursor
  | threadKeyword => exact runWorker_yields tidy false cursor
  | spawnKeyword => exact runWorker_yields tidy true cursor

/-- The indices of the steps to a place are used up. -/
theorem evaluateSegments_runs (lawful : eval.Lawful strict) (site : Site)
    (segments : List WrittenSegment) :
    ∀ {engine : Engine}, engine.Tidy strict →
      Runs strict engine (fun _ _ => True) (evaluateSegments eval site segments) engine := by
  -- The induction is on the steps that are left.
  induction segments with
  | nil => exact fun tidy => .done (.refl tidy) trivial
  | cons segment rest ih =>
    intro engine tidy
    cases segment with
    | index text =>
      refine .bind (evaluateAs_runs lawful tidy .index _ _) fun index now reached _ => ?_
      refine .bind (ih reached.tidy) fun others now reached _ => ?_
      exact .done (.refl reached.tidy) trivial
    | property name =>
      refine .bind (ih tidy) fun others now reached _ => ?_
      exact .done (.refl reached.tidy) trivial

/-- The indices of a written place are used up. -/
theorem evaluatePlace_runs (lawful : eval.Lawful strict) (tidy : engine.Tidy strict) (site : Site)
    (place : WrittenPlace) :
    Runs strict engine (fun _ _ => True) (place.evaluate eval site) engine := by
  refine .bind (evaluateSegments_runs lawful site _ tidy) fun segments now reached _ => ?_
  exact .done (.refl reached.tidy) trivial

/-- An assignment yields the value that it has stored. -/
theorem runAssignment_runs (lawful : eval.Lawful strict) (tidy : engine.Tidy strict)
    (cursor : Cursor) :
    Runs strict engine (fun result now => ∀ finished, result = some finished →
      Stored strict finished.1 now) (runAssignment? eval cursor) engine := by
  refine .look (.read (.refl tidy) fun ⟨place, behind⟩ _ => ?_)
  cases place with
  | none => exact .done (.refl tidy) (by simp)
  | some written =>
    dsimp only
    split
    case h_1 => exact .done (.refl tidy) (by simp)
    case h_2 action found =>
      refine .bind (evaluatePlace_runs lawful tidy _ written) fun place now reached _ => ?_
      -- Whatever the engine has run, its actions make sound values of sound ones.
      have sound := tidy.imp reached.exempt fun clean => clean.symbols.matchAction found
      refine .bind (applyAction_runs lawful reached.tidy _ place sound)
        fun result now reached clean => ?_
      refine .read (.refl reached.tidy) fun next _ => ?_
      refine .done (.refl reached.tidy) fun finished same => ?_
      cases same
      exact clean

/-- A statement that starts with a step operator yields the value that it has stored. -/
theorem runStep_yields (lawful : eval.Lawful strict) (tidy : engine.Tidy strict) (cursor : Cursor) :
    Yields strict engine (runStep eval cursor) engine := by
  refine .look ?_
  dsimp only
  split
  case h_1 => exact .failed (.refl tidy)
  case h_2 action found =>
    refine .read (.refl tidy) fun ⟨place, behind⟩ _ => ?_
    cases place with
    | none => exact .failed (.refl tidy)
    | some written =>
      refine .bind (evaluatePlace_runs lawful tidy _ written) fun place now reached _ => ?_
      have sound := tidy.imp reached.exempt fun clean => clean.symbols.matchAction found
      refine .bind (applyAction_runs lawful reached.tidy _ place sound)
        fun result now reached clean => ?_
      refine .read (.refl reached.tidy) fun next _ => ?_
      exact .done (.refl reached.tidy) (.of_clean rfl clean)

/-- A statement that is an expression yields its value. -/
theorem runExpression_yields (lawful : eval.Lawful strict) (tidy : engine.Tidy strict)
    (cursor : Cursor) : Yields strict engine (runExpression eval cursor) engine := by
  refine .bindYielded (lawful .expression _ _ tidy) fun ⟨value, behind⟩ now settled => ?_
  refine .readBehind settled rfl fun next _ => .settled ?_
  exact settled.keep rfl rfl

/-- A statement that starts with a word yields a trusted value or a `quit`. -/
theorem runWord_yields (lawful : eval.Lawful strict) (tidy : engine.Tidy strict) (cursor : Cursor) :
    Yields strict engine (runWord eval cursor) engine := by
  refine .look ?_
  split
  · exact runKeyword_yields lawful tidy _ _
  · refine .bind (runAssignment_runs lawful tidy cursor) fun result now reached clean => ?_
    cases result with
    | some finished => exact .done (.refl reached.tidy) (.of_clean rfl (clean finished rfl))
    | none => exact runExpression_yields lawful reached.tidy cursor

/-- A statement yields a trusted value or a `quit`. -/
theorem runStatement_yields (lawful : eval.Lawful strict) (tidy : engine.Tidy strict)
    (cursor : Cursor) : Yields strict engine (runStatement eval cursor) engine := by
  refine .checkCancelled tidy fun now reached free => ?_
  have started := Moved.startStatement cursor.skipSpaces.site reached.tidy free
  refine .change started ?_
  -- Nothing else is needed of the interpreter that the statement starts with.
  generalize now.startStatement cursor.skipSpaces.site = now at started
  have null : ∀ behind : Cursor, Yields strict now (pure (Value.null, behind)) now := fun behind =>
    .done (.refl started.tidy) (.of_clean rfl (.inr Value.clean_null))
  -- The statement is empty, a block, a step, a word or an expression.
  split
  · exact null _
  · exact null _
  · refine .read (.refl started.tidy) fun ⟨body, behind⟩ _ => ?_
    exact yields_behind behind (runAll_yields lawful started.tidy _)
  · split
    · exact runStep_yields lawful started.tidy _
    · split
      · exact runWord_yields lawful started.tidy _
      · exact runExpression_yields lawful started.tidy _

end ScriptEngine

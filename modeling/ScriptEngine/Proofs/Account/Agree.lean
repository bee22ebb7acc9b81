import ScriptEngine.Proofs.Account.Bare
import ScriptEngine.Proofs.Step

/-! Accounts of the calls that an evaluation makes, and computations that do the same and keep an
account: what there is to know of the primitives, and how computations are put together. -/

namespace ScriptEngine

/-- A change has nothing to do with calls. -/
structure Quiet (engine changed : Engine) : Prop where
  calls : changed.calls = engine.calls
  config : changed.config = engine.config
  callLog : changed.callLog = engine.callLog

/-- What is accounted for of an evaluation: where it may start, what the other threads leave alone while
it pauses, and how it comes back with a value or for a stop. All that an account has to say about is
calls, the failures that leave them, and the places where a failure is handled or comes in. -/
structure Account where
  admits : Engine → Prop
  rely : Engine → Engine → Prop
  ends : Engine → Option Stop → Engine → Prop
  refl : ∀ engine, ends engine none engine
  trans : ∀ {start engine stop now}, ends start none engine → ends engine stop now →
    ends start stop now
  settles : ∀ {start stop engine now}, ends start stop engine → Quiet engine now →
    ends start stop now
  admitted : ∀ {engine now}, ends engine none now → admits engine → admits now
  meanwhile : ∀ {engine now}, rely engine now → ends engine none now
  receives : ∀ engine stop, ends engine (some stop) (engine.receive stop)
  enters : ∀ {engine} function, admits engine → engine.calls.length < engine.config.maxCallDepth →
    admits (engine.recordCall function)
  returns : ∀ {engine function now}, ends (engine.recordCall function) none now →
    ends engine none (now.exitCall.noteCall (.left function))
  unwinds : ∀ {engine function failure now},
    ends (engine.recordCall function) (some (.failed failure)) now →
      ends engine (some (.failed (failure.inFrame function)))
        (now.exitCall.noteCall (.unwound function))
  exhausts : ∀ {engine function now}, ends (engine.recordCall function) (some .exhausted) now →
    ends engine (some .exhausted) now.exitCall
  handles : ∀ {start failure now}, ends start (some (.failed failure)) now →
    now.calls = start.calls ∧ ends start none (now.noteCall .handled)

/-- What an evaluation ends for without a value. -/
def stop? {α : Type} : Except Stop α → Option Stop
  | .ok _ => none
  | .error stop => some stop

variable {α β γ : Type}

/-- Two evaluations take the same turns and come to the same end, of which `post` holds, as long as the
other threads change the interpreter of a pause only as `rely` says. -/
inductive Step.Alike (rely : Engine → Engine → Prop) (post : Except Stop α → Engine → Prop) :
    Step α → Step α → Prop
  | finished {result : Except Stop α} {final : Engine} (ends : post result final) :
    Alike rely post (.finished result final) (.finished result final)
  | paused {wait : Wait} {engine : Engine} {resume other : Engine → Step α}
      (goesOn : ∀ changed, rely engine changed → Alike rely post (resume changed) (other changed)) :
    Alike rely post (.paused wait engine resume) (.paused wait engine other)

/-- How an evaluation that started at an interpreter comes back. -/
def Account.BackAt (account : Account) (start : Engine) (result : Except Stop α)
    (now : Engine) : Prop :=
  account.ends start (stop? result) now

/-- Two computations that start at an interpreter do the same and keep an account. -/
def AgreeAt (account : Account) (engine : Engine) (body other : Eval α) : Prop :=
  (body engine).Alike account.rely (account.BackAt engine) (other engine)

/-- Two computations do the same wherever an account lets them start, and keep it. -/
def Agree (account : Account) (body other : Eval α) : Prop :=
  ∀ engine : Engine, account.admits engine → AgreeAt account engine body other

/-- Two evaluators do the same with every phrase wherever an account lets them start. -/
def Evaluator.Agrees (account : Account) (eval other : Evaluator) : Prop :=
  ∀ phrase cursor, Agree account (eval phrase cursor) (other phrase cursor)

variable {account : Account} {start engine now : Engine} {body other : Eval α}

namespace Quiet

theorem refl (engine : Engine) : Quiet engine engine := ⟨rfl, rfl, rfl⟩

end Quiet

namespace Account

/-- What has nothing to do with calls is in order. -/
theorem quiet (account : Account) (quiet : Quiet engine now) : account.ends engine none now :=
  account.settles (account.refl engine) quiet

/-- A failure that has not left a call may come up anywhere. -/
theorem fails (account : Account) {failure : Failure} (bare : failure.trace = []) :
    account.ends engine (some (.failed failure)) engine := by
  have received := account.receives engine (.failed failure)
  simpa only [Engine.receive, bare, List.isEmpty_nil, if_true] using received

end Account

/-- Binding a name has nothing to do with calls. -/
theorem Engine.quiet_defineIn (engine : Engine) (outermost : SymbolTable → SymbolTable)
    (name : String) (handler : Handler) : Quiet engine (engine.defineIn outermost name handler) := by
  unfold Engine.defineIn
  split <;> exact ⟨rfl, rfl, rfl⟩

namespace Step.Alike

variable {rely : Engine → Engine → Prop} {post other : Except Stop α → Engine → Prop}
  {goal : Except Stop β → Engine → Prop} {step step' : Step α}

/-- Which of two evaluations comes first is no matter. -/
theorem symm (alike : step.Alike rely post step') : step'.Alike rely post step := by
  induction alike with
  | finished ends => exact .finished ends
  | paused _ ih => exact .paused ih

/-- What holds of the end can be weakened. -/
theorem mono (alike : step.Alike rely post step')
    (weaken : ∀ result now, post result now → other result now) : step.Alike rely other step' := by
  induction alike with
  | finished ends => exact .finished (weaken _ _ ends)
  | paused _ ih => exact .paused ih

/-- What goes on behind two evaluations is alike if it is behind each of their ends. -/
theorem andThen {next next' : Except Stop α → Engine → Step β} (alike : step.Alike rely post step')
    (goesOn : ∀ result now, post result now →
      (next result now).Alike rely goal (next' result now)) :
    (step.andThen next).Alike rely goal (step'.andThen next') := by
  -- The induction goes from pause to pause of the first part.
  induction alike with
  | finished ends => exact goesOn _ _ ends
  | paused _ ih => exact .paused ih

/-- Each end of one of two evaluations is an end of the other. -/
theorem mayEnd {result : Except Stop α} {final : Engine} (alike : step.Alike rely post step')
    (ends : step.MayEnd rely result final) : step'.MayEnd rely result final ∧ post result final := by
  -- The induction is on how one evaluation ends, and the other one follows its steps.
  induction ends generalizing step' with
  | finished =>
    cases alike with
    | finished holds => exact ⟨.finished, holds⟩
  | paused allowed _ ih =>
    cases alike with
    | paused goesOn =>
      obtain ⟨ends, holds⟩ := ih (goesOn _ allowed)
      exact ⟨.paused allowed ends, holds⟩

end Step.Alike

/-- The account of an evaluation may start earlier. -/
theorem AgreeAt.after {step step' : Step α}
    (alike : step.Alike account.rely (account.BackAt engine) step')
    (before : account.ends start none engine) :
    step.Alike account.rely (account.BackAt start) step' :=
  alike.mono fun _ _ => account.trans before

namespace Agree

/-- A computation that ends at once and has nothing to do with calls agrees with itself. -/
theorem ended {value : Engine → α} {change : Engine → Engine}
    (quiet : ∀ engine, Quiet engine (change engine)) :
    Agree account (fun engine => .finished (.ok (value engine)) (change engine))
      (fun engine => .finished (.ok (value engine)) (change engine)) :=
  fun engine _ => .finished (account.quiet (quiet engine))

/-- What yields a value changes nothing. -/
theorem done (value : α) : Agree account (pure value) (pure value) :=
  ended fun engine => .refl engine

/-- What fails for a cause has not left a call. -/
theorem failed {cause : Cause} :
    Agree account (Eval.throwCause cause : Eval α) (Eval.throwCause cause) :=
  fun _ _ => .finished (account.fails rfl)

/-- Where no nesting is left, no call is left. -/
theorem exhausted : Agree account (throw .exhausted : Eval α) (throw .exhausted) :=
  fun engine _ => .finished (account.receives engine .exhausted)

/-- What goes on behind computations that agree. -/
theorem bind {next next' : α → Eval β} (first : Agree account body other)
    (goesOn : ∀ value, Agree account (next value) (next' value)) :
    Agree account (body >>= next) (other >>= next') := by
  refine fun engine admits => (first engine admits).andThen fun result now back => ?_
  cases result with
  | ok value => exact AgreeAt.after (goesOn value now (account.admitted back admits)) back
  | error stop => exact .finished back

/-- Which of two parts runs is decided alike. -/
theorem ite {condition : Prop} [Decidable condition] {body' other' : Eval α}
    (first : Agree account body other) (second : Agree account body' other') :
    Agree account (if condition then body else body') (if condition then other else other') := by
  split
  · exact first
  · exact second

/-- What goes on behind a look at the interpreter, which is still the one looked at. -/
theorem look {next next' : Engine → Eval β}
    (goesOn : ∀ engine : Engine, account.admits engine →
      AgreeAt account engine (next engine) (next' engine)) :
    Agree account ((get : Eval Engine) >>= next) (get >>= next') :=
  fun engine admits => goesOn engine admits

/-- What goes on behind a look at the interpreter, which it only reads. -/
theorem peek {next next' : Engine → Eval β}
    (goesOn : ∀ seen, Agree account (next seen) (next' seen)) :
    Agree account ((get : Eval Engine) >>= next) (get >>= next') :=
  look fun engine admits => goesOn engine engine admits

/-- A change of the interpreter that has nothing to do with calls. -/
theorem changed {change : Engine → Engine} (quiet : ∀ engine, Quiet engine (change engine)) :
    Agree account (modify change : Eval PUnit) (modify change) :=
  ended quiet

/-- Binding a name has nothing to do with calls. -/
theorem defineLocal (name file : String) (handler : Handler) :
    Agree account (modify (·.defineLocal name handler file) : Eval PUnit)
      (modify (·.defineLocal name handler file)) :=
  changed fun engine => engine.quiet_defineIn _ _ _

/-- Reading text leaves no call. -/
theorem ofRead (source : Read α) : Agree account (Eval.ofRead source) (Eval.ofRead source) := by
  cases source with
  | ok value => exact done value
  | error stopped => exact failed

/-- Taking the result of an operation of the language leaves no call. -/
theorem ofResult {source : Result α} (bare : Bare source) :
    Agree account (Eval.ofResult source) (Eval.ofResult source) := by
  cases source with
  | ok value => exact done value
  | error failure => exact fun _ _ => .finished (account.fails (bare failure rfl))

/-- What a part outside the interpreter yields may be a failure that has left calls there. -/
theorem ofHost (source : Result α) : Agree account (Eval.ofHost source) (Eval.ofHost source) := by
  cases source with
  | ok value => exact done value
  | error failure => exact fun engine _ => .finished (account.receives engine (.failed failure))

/-- An end that comes in may have left calls elsewhere. -/
theorem received (stop : Stop) :
    Agree account ((modify (·.receive stop) : Eval PUnit) >>= fun _ => (throw stop : Eval α))
      (modify (·.receive stop) >>= fun _ => throw stop) :=
  fun engine _ => .finished (account.receives engine stop)

/-- An entry in the log has nothing to do with calls. -/
theorem note (event : Event) : Agree account (Eval.note event) (Eval.note event) :=
  changed fun _ => ⟨rfl, rfl, rfl⟩

/-- The use of a value has nothing to do with calls. -/
theorem use (use : Use) (value : Value) :
    Agree account (Eval.use use value) (Eval.use use value) := by
  unfold Eval.use
  dsimp only
  split
  · exact .bind (.changed fun _ => ⟨rfl, rfl, rfl⟩) fun _ => .done _
  · exact .done _

/-- Reading behind a value leaves no call. -/
theorem ofReadBehind (value : Value) (source : Read α) :
    Agree account (Eval.ofReadBehind value source) (Eval.ofReadBehind value source) := by
  unfold Eval.ofReadBehind
  dsimp only
  split
  · exact .bind (.use _ _) fun _ => .ofRead _
  · exact .ofRead _

/-- A thread that pauses has its calls when it goes on. -/
theorem pause (wait : Wait) : Agree account (Eval.pause wait) (Eval.pause wait) :=
  fun _ _ => .paused fun _ relies => .finished (account.meanwhile relies)

/-- Nothing goes on behind a request to end. -/
theorem checkCancelled : Agree account Eval.checkCancelled Eval.checkCancelled := by
  refine .bind (.changed fun engine => ?_) fun _ => .peek fun seen => ?_
  · unfold Engine.look
    split <;> exact ⟨rfl, rfl, rfl⟩
  · split
    · exact .bind (.changed fun _ => ⟨rfl, rfl, rfl⟩) fun _ => .failed
    · exact .done _

/-- A computation agrees in surroundings that have nothing to do with calls. -/
theorem closing {after : Engine → Engine} (agree : Agree account body other)
    (quiet : ∀ engine, Quiet engine (after engine)) :
    Agree account (Eval.closing body after) (Eval.closing other after) :=
  fun engine admits => (agree engine admits).andThen fun _ now back =>
    .finished (account.settles back (quiet now))

/-- A computation agrees in a frame of its own. -/
theorem withFrame {kind : FrameKind} (agree : Agree account body other) :
    Agree account (Eval.withFrame kind body) (Eval.withFrame kind other) :=
  .peek fun _ => .bind (.changed fun _ => ⟨rfl, rfl, rfl⟩) fun _ =>
    .closing agree fun _ => ⟨rfl, rfl, rfl⟩

/-- A computation agrees in the region that only one thread may be in. -/
theorem inRegion (agree : Agree account body other) :
    Agree account (Eval.inRegion body) (Eval.inRegion other) := by
  have enters : Agree account
      ((modify (·.enterRegion) : Eval PUnit) >>= fun _ => Eval.closing body (·.leaveRegion))
      (modify (·.enterRegion) >>= fun _ => Eval.closing other (·.leaveRegion)) :=
    .bind (.changed fun _ => ⟨rfl, rfl, rfl⟩) fun _ => .closing agree fun _ => ⟨rfl, rfl, rfl⟩
  -- Whether the region is free is the same for both, since they start in the same interpreter.
  refine .peek fun seen => ?_
  dsimp only
  split
  · exact .bind (.pause .region) fun _ => enters
  · exact enters

/-- The body of a call agrees: it starts with one more call, which it leaves however it ends. A call
that is not entered leaves nothing. -/
theorem enterCall {function : String} (agree : Agree account body other) :
    Agree account
      (ScriptEngine.enterCall function >>= fun _ =>
        Eval.inFrame function (Eval.closing body Engine.exitCall))
      (ScriptEngine.enterCall function >>= fun _ =>
        Eval.inFrame function (Eval.closing other Engine.exitCall)) := by
  unfold ScriptEngine.enterCall
  rw [bind_assoc, bind_assoc]
  refine .look fun engine admits => ?_
  dsimp only
  split
  · exact .finished (account.fails rfl)
  case isFalse below =>
    -- The body starts with the calls that the account has for it.
    have inside := account.enters function admits (Nat.lt_of_not_le below)
    have closed : (Eval.closing body Engine.exitCall (engine.recordCall function)).Alike account.rely
        (fun result now => ∃ last, account.BackAt (engine.recordCall function) result last ∧
          now = last.exitCall)
        (Eval.closing other Engine.exitCall (engine.recordCall function)) :=
      (agree _ inside).andThen fun _ last back => .finished ⟨last, back, rfl⟩
    have framed : (Eval.inFrame function (Eval.closing body Engine.exitCall)
          (engine.recordCall function)).Alike account.rely (account.BackAt engine)
        (Eval.inFrame function (Eval.closing other Engine.exitCall) (engine.recordCall function)) := by
      refine closed.andThen fun result now ends => ?_
      obtain ⟨last, back, rfl⟩ := ends
      -- A frame returns, or the failure passes it, or the evaluation has run out of steps.
      match result with
      | .ok _ => exact .finished (account.returns back)
      | .error (.failed _) => exact .finished (account.unwinds back)
      | .error .exhausted => exact .finished (account.exhausts back)
    exact framed

end Agree

namespace AgreeAt

/-- What goes on behind the replacement of the interpreter by one with the same calls. -/
theorem replace {changed : Engine} {next next' : PUnit → Eval β} (quiet : Quiet engine changed)
    (admits : account.admits engine) (goesOn : Agree account (next ⟨⟩) (next' ⟨⟩)) :
    AgreeAt account engine ((set changed : Eval PUnit) >>= next) (set changed >>= next') :=
  AgreeAt.after (goesOn changed (account.admitted (account.quiet quiet) admits)) (account.quiet quiet)

/-- What goes on behind what a part outside the interpreter yields, at the same interpreter. -/
theorem host {source : Result α} {next next' : α → Eval β}
    (goesOn : ∀ value, AgreeAt account engine (next value) (next' value)) :
    AgreeAt account engine (Eval.ofHost source >>= next) (Eval.ofHost source >>= next') := by
  cases source with
  | ok value => exact goesOn value
  | error failure => exact .finished (account.receives engine (.failed failure))

/-- What goes on behind a computation or behind its failure, which is handed out. -/
theorem attempt {next next' : Except Failure α → Eval β} (admits : account.admits engine)
    (agree : AgreeAt account engine body other)
    (succeeds : ∀ value, Agree account (next (.ok value)) (next' (.ok value)))
    (fails : ∀ failure now, account.ends engine (some (.failed failure)) now →
      (next (.error failure) now).Alike account.rely (account.BackAt engine)
        (next' (.error failure) now)) :
    AgreeAt account engine (Eval.attempt body >>= next) (Eval.attempt other >>= next') := by
  have attempts : (Eval.attempt body engine).Alike account.rely
      (fun (result : Except Stop (Except Failure α)) now => match result with
        | .ok (.ok _) => account.ends engine none now
        | .ok (.error failure) => account.ends engine (some (.failed failure)) now
        | .error stop => account.ends engine (some stop) now) (Eval.attempt other engine) := by
    -- Only a failure can be handed out; running out of steps ends the attempt as well.
    refine agree.andThen fun result now back => ?_
    match result with
    | .ok _ => exact .finished back
    | .error (.failed _) => exact .finished back
    | .error .exhausted => exact .finished back
  refine attempts.andThen fun result now back => ?_
  match result with
  | .ok (.ok value) => exact AgreeAt.after (succeeds value now (account.admitted back admits)) back
  | .ok (.error failure) => exact fails failure now back
  | .error _ => exact .finished back

end AgreeAt

end ScriptEngine

import ScriptEngine.Proofs.Frames
import ScriptEngine.Proofs.Signals

/-! Requests to end: once one is made nothing starts any more, and what ends for it ends as a whole. -/

namespace ScriptEngine

namespace Obeyed

variable {history : List Milestone} {asked : Bool}

/-- Behind a request that is not lifted an end is asked for, and nothing starts. -/
theorem nothing_starts {later earlier : List Milestone}
    (obeyed : Obeyed (later ++ .request :: earlier) asked) (unlifted : .lifted ∉ later) :
    asked = true ∧ ∀ milestone ∈ later, milestone = .request := by
  -- The milestones behind the request are taken off one by one.
  induction later generalizing asked with
  | nil =>
    cases obeyed
    exact ⟨rfl, nofun⟩
  | cons first later ih =>
    have rest : .lifted ∉ later := fun there => unlifted (List.mem_cons_of_mem _ there)
    cases obeyed with
    | statement site before => exact absurd (ih before rest).1 Bool.false_ne_true
    | pass before => exact absurd (ih before rest).1 Bool.false_ne_true
    | request before => exact ⟨rfl, List.forall_mem_cons.mpr ⟨rfl, (ih before rest).2⟩⟩
    | lifted => exact absurd List.mem_cons_self unlifted

/-- A history tells whether an end is asked for. -/
theorem unique {other : Bool} (obeyed : Obeyed history asked) (too : Obeyed history other) :
    asked = other := by
  cases obeyed <;> cases too <;> rfl

/-- Where none was before, an end is asked for exactly behind a request, as long as none is lifted. -/
theorem asked_iff {during before : List Milestone} (obeyed : Obeyed (during ++ before) asked)
    (free : Obeyed before false) (unlifted : .lifted ∉ during) : asked = true ↔ .request ∈ during := by
  -- The milestones since then are taken off one by one.
  induction during generalizing asked with
  | nil => simp [obeyed.unique free]
  | cons first during ih =>
    have rest : .lifted ∉ during := fun there => unlifted (List.mem_cons_of_mem _ there)
    cases obeyed with
    | statement site earlier => simpa using ih earlier rest
    | pass earlier => simpa using ih earlier rest
    | request => simp
    | lifted => exact absurd List.mem_cons_self unlifted

end Obeyed

/-- If a thread has noted that it ends because an end was asked for, then that is the latest entry of
its log and why it ends. -/
def EndsInterrupted {α : Type} (result : Except Stop α) (log : List Event) : Prop :=
  .interrupted ∈ log →
    log.head? = some .interrupted ∧ ∃ stop, result = .error stop ∧ stop.interrupts = true

variable {α : Type} {strict : Bool} {start final : Engine} {carries : α → Option Value}
  {post : α → Engine → Prop} {result : Except Stop α} {log : List Event}

/-- In a log in which each `quit` was handed on, nothing was interrupted. -/
theorem HandedOn.not_interrupted (handed : HandedOn log) : .interrupted ∉ log := by
  induction handed with
  | nil => exact List.not_mem_nil
  | statement | used | embedded | quit => simpa

/-- Where an evaluation has ended, it has ended for a request to end if it has noted one. -/
theorem Ends.endsInterrupted (ends : Ends strict start carries post result final) :
    ∃ new, final.events = new ++ start.events ∧ EndsInterrupted result new := by
  -- As long as the evaluation goes on, no interruption has been noted.
  have untold : ∀ {now : Engine}, Reached strict start now →
      ∃ new, now.events = new ++ start.events ∧ .interrupted ∉ new := by
    intro now reached
    obtain ⟨new, log, handed⟩ := reached.log
    exact ⟨new, log, handed.not_interrupted⟩
  cases result with
  | ok value =>
    rcases ends with ⟨reached, _⟩ | ⟨_, code, before, _, _, reached, rfl⟩
    · obtain ⟨new, log, none⟩ := untold reached
      exact ⟨new, log, fun there => absurd there none⟩
    · obtain ⟨new, log, none⟩ := untold reached
      exact ⟨.quit code :: new, congrArg _ log, fun there => absurd there (by simpa)⟩
  | error stop =>
    rcases ends with reached | ⟨interrupts, before, reached, rfl⟩
    · obtain ⟨new, log, none⟩ := untold reached
      exact ⟨new, log, fun there => absurd there none⟩
    · obtain ⟨new, log, _⟩ := untold reached
      exact ⟨.interrupted :: new, congrArg _ log, fun _ => ⟨rfl, stop, rfl, interrupts⟩⟩

/-- Where an evaluation has ended, the statements that it has started are in the history. -/
theorem Ends.recorded (ends : Ends true start carries post result final) : Recorded start final := by
  obtain ⟨before, reached, rfl | ⟨event, other, rfl⟩⟩ := ends.reached
  · exact reached.recorded rfl
  · exact (reached.recorded rfl).trans (.note other)

/-- A request of a host has ended for a request to end if it has noted one. -/
theorem RequestEnds.endsInterrupted (ends : RequestEnds strict start carries post result final) :
    ∃ new, final.events = new ++ start.events ∧ EndsInterrupted result new := by
  rcases ends with ⟨ended, ends, rfl⟩ | ⟨rfl, progressed⟩
  · exact ends.endsInterrupted
  · obtain ⟨new, log, handed⟩ := progressed.log
    exact ⟨new, log, fun there => absurd there handed.not_interrupted⟩

/-- A request of a host has recorded the statements that it has started. -/
theorem RequestEnds.recorded (ends : RequestEnds true start carries post result final) :
    Recorded start final := by
  rcases ends with ⟨ended, ends, rfl⟩ | ⟨rfl, progressed⟩
  · exact ends.recorded
  · exact progressed.recorded rfl

/-- The interpreters that a host comes to by running scripts, by asking for an end at any time, and by
lifting such requests. -/
inductive Hosted : Interpreter → Prop
  | fresh (config : Config) (files : FileTree) : Hosted (.new config files)
  | ran {interpreter : Interpreter} (before : Hosted interpreter) (source file : String)
      (isMain : Bool) : Hosted (interpreter.process source file isMain).2
  | cancelled {interpreter : Interpreter} (before : Hosted interpreter) :
    Hosted (interpreter.modify (·.cancel))
  | lifted {interpreter : Interpreter} (before : Hosted interpreter) :
    Hosted (interpreter.modify (·.resetCancel))
  /-- A request to end is on its way, and comes in once threads have looked for one so often. -/
  | expecting {interpreter : Interpreter} (before : Hosted interpreter) (looks : Nat) :
    Hosted (interpreter.modify ({ · with hostRequest := some looks }))

/-- What only keeps what it should leaves an interpreter steady. -/
theorem Interpreter.Steady.modify {interpreter : Interpreter} (steady : interpreter.Steady true)
    {change : Engine → Engine} (keeps : Keeps true interpreter.engine (change interpreter.engine))
    (neat : interpreter.engine.Neat → (change interpreter.engine).Neat) :
    (interpreter.modify change).Steady true :=
  ⟨steady.tidy.imp keeps.exempt neat, fun holds => keeps.orderly holds (steady.orderly holds),
    fun holds thread member =>
      (steady.threads holds thread member).imp fun _ steady => steady.onward keeps⟩

/-- What a host comes to is steady. -/
theorem Hosted.steady {interpreter : Interpreter} (hosted : Hosted interpreter) :
    interpreter.Steady true := by
  -- The induction is on what the host has done, step by step.
  induction hosted with
  | fresh config files => exact Interpreter.steady_new config files
  | ran _ source file isMain ih => exact (ih.process source file isMain).2
  | cancelled _ ih =>
    exact ih.modify ⟨fun _ => .refl _, fun _ => List.suffix_cons _ _, fun _ => .request⟩
      fun neat => { neat with }
  | lifted _ ih =>
    exact ih.modify ⟨fun _ => .refl _, fun _ => List.suffix_cons _ _, fun _ => .lifted⟩
      fun neat => { neat with }
  | expecting _ looks ih => exact ih.modify (.of_course rfl) fun neat => { neat with }

/-- What other threads do meanwhile lifts no request to end. -/
def KeepsAsked (engine changed : Engine) : Prop := engine.cancelled = true → changed.cancelled = true

/-- While an end is asked for, a look for a request to end finds one. -/
theorem Engine.look_cancelled {engine : Engine} (asked : engine.cancelled = true) :
    engine.look.cancelled = true := by
  unfold Engine.look
  split
  · exact asked
  · rfl
  · exact asked

/-- Nothing goes on behind a look that finds a request to end. -/
theorem checkCancelled_stops {next : Unit → Eval α} (asked : start.look.cancelled = true) :
    (Eval.checkCancelled >>= next) start =
      .finished (.error (.failed Cause.interrupted)) (start.look.note .interrupted) := by
  have stops : Eval.checkCancelled start =
      .finished (.error (.failed Cause.interrupted)) (start.look.note .interrupted) := by
    show (do if (← get).cancelled then Eval.note .interrupted; Eval.throwCause .interrupted : Eval Unit)
      start.look = _
    rw [Eval.get_bind, asked]
    rfl
  exact Eval.bind_error stops next

/-- While an end is asked for, no pass is admitted, and that is noted. -/
theorem admitPass_stops (left : Nat) (asked : start.cancelled = true) {result : Except Stop Unit}
    (ends : (admitPass left start).MayEnd KeepsAsked result final) :
    result = .error (.failed Cause.interrupted) ∧ final.events.head? = some .interrupted := by
  have stops : ∀ {now : Engine} {next : Unit → Eval Unit}, now.cancelled = true →
      ((Eval.checkCancelled >>= next) now).MayEnd KeepsAsked result final →
      result = .error (.failed Cause.interrupted) ∧ final.events.head? = some .interrupted := by
    intro now next asked ends
    rw [checkCancelled_stops (Engine.look_cancelled asked)] at ends
    cases ends
    exact ⟨rfl, rfl⟩
  unfold admitPass Eval.giveWay at ends
  rw [bind_assoc, Eval.get_bind] at ends
  -- Others may take their turn first, and an end is still asked for behind that.
  split at ends
  · cases ends with
    | paused allowed ends => exact stops (allowed asked) ends
  · exact stops asked ends

/-- Since a main script has started nothing has started behind a request to end, neither a statement
nor a pass of a loop, in any thread. If the script has noted that it ends for such a request, it has ended
so, with nothing behind the note; so does a worker. A statement or a pass that comes up while an end is
asked for is refused with that note. -/
theorem cancellation_is_final {interpreter final : Interpreter} (hosted : Hosted interpreter)
    {source file : String} {result : Except Stop Value}
    (ran : interpreter.process source file true = (result, final)) :
    (∃ new during before, final.engine.events = new ++ interpreter.engine.events ∧
      final.engine.milestones = during ++ before ∧ .lifted ∉ during ∧
      (new.filterMap Event.site?).Sublist (during.filterMap Milestone.site?) ∧
      EndsInterrupted result new ∧
      (new ≠ [] → (final.engine.cancelled = true ↔ .request ∈ during)) ∧
      ∀ later earlier, during = later ++ .request :: earlier →
        ∀ milestone ∈ later, milestone = .request) ∧
    (∀ depth (launch : Launch) start result final,
      (launch.run (evaluator depth) start).MayEnd KeepsOwn result final →
        ∃ new, final.events = new ++ start.events ∧ EndsInterrupted result new) ∧
    (∀ depth cursor start, start.look.cancelled = true →
      runStatement (evaluator depth) cursor start =
        .finished (.error (.failed Cause.interrupted)) (start.look.note .interrupted)) ∧
    ∀ left start result final, start.cancelled = true →
      (admitPass left start).MayEnd KeepsAsked result final →
        result = .error (.failed Cause.interrupted) ∧
          final.events.head? = some .interrupted := by
  obtain ⟨start, reached, untouched, driven, begun⟩ := hosted.steady.processMain source file
  rw [ran] at driven begun
  refine ⟨?_, fun depth launch start _ _ ends => ?_, fun _ _ _ => checkCancelled_stops,
    fun left _ _ _ asked => admitPass_stops left asked⟩
  · obtain ⟨new, during, log, history, sites⟩ := driven.ends.recorded
    -- Both accounts of the end speak of the same entries in the log.
    obtain ⟨other, same, interrupted⟩ := driven.ends.endsInterrupted
    obtain rfl := List.append_cancel_right (log.symm.trans same)
    have unlifted := driven.turn.not_lifted history
    have obeyed : Obeyed (during ++ start.milestones) final.engine.cancelled :=
      history ▸ driven.steady.orderly rfl
    have before : start.Orderly := reached.keeps.orderly rfl (hosted.steady.orderly rfl)
    refine ⟨new, during, start.milestones, untouched ▸ log, history, unlifted, sites, interrupted,
      fun ran => ?_, fun later earlier split => ?_⟩
    · -- A script that has had no turn has left its log as it was.
      have free : start.cancelled = false := begun.resolve_right fun same => ran (by
        rw [log, untouched] at same
        exact List.append_left_eq_self.mp same)
      unfold Engine.Orderly at before
      exact obeyed.asked_iff (free ▸ before) unlifted
    · subst split
      rw [List.append_assoc, List.cons_append] at obeyed
      exact (obeyed.nothing_starts fun there => unlifted (List.mem_append_left _ there)).2
  · have proceeds := launch_proceeds (evaluator_lawful depth) launch (tidy_of_lax start)
    exact ((proceeds.under (fun _ _ => KeepsOwn.rely) fun _ _ => id).at_end ends).endsInterrupted

/-- A new interpreter whose host asks for an end once threads have looked for a request nine times. -/
def soonCancelled : Interpreter := (Interpreter.new {} {}).modify ({ · with hostRequest := some 9 })

/-- A script that goes on counting within a call, and handles all that fails there. -/
def handledCount : String :=
  "function f() { while (true) { try { n = n + 1; } catch (e) { n = 0; } } } n = 0; f();"

/-- The host asks for an end while the script counts, and the script ends for that. -/
theorem cancellation_is_final_handled :
    Hosted soonCancelled ∧ (soonCancelled.process handledCount "main" true).2.engine.cancelled = true ∧
      ∃ stop during before, (soonCancelled.process handledCount "main" true).1 = .error stop ∧
        stop.interrupts = true ∧ .request ∈ during ∧ .lifted ∉ during ∧
        (soonCancelled.process handledCount "main" true).2.engine.milestones = during ++ before := by
  have hosted : Hosted soonCancelled := .expecting (.fresh {} {}) 9
  have cancelled : (soonCancelled.process handledCount "main" true).2.engine.cancelled = true := by
    decide +kernel
  have noted : (soonCancelled.process handledCount "main" true).2.engine.events.any
      (· matches .interrupted) = true := by decide +kernel
  generalize ran : soonCancelled.process handledCount "main" true = outcome at cancelled noted ⊢
  obtain ⟨result, final⟩ := outcome
  -- The theorem tells what the interruption goes back to.
  obtain ⟨⟨new, during, before, log, history, unlifted, _, interrupted, asked, _⟩, _⟩ :=
    cancellation_is_final hosted ran
  have all : soonCancelled.engine.events = [] := rfl
  rw [log, all, List.append_nil, List.any_eq_true] at noted
  obtain ⟨event, there, same⟩ := noted
  have there : .interrupted ∈ new := by
    cases event <;> first | exact there | cases same
  obtain ⟨_, stop, ended, interrupts⟩ := interrupted there
  exact ⟨hosted, cancelled, stop, during, before, ended, interrupts,
    (asked (List.ne_nil_of_mem there)).mp cancelled, unlifted, history⟩

end ScriptEngine

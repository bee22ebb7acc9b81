import ScriptEngine.Proofs.Frames

/-! How far a `quit` gets: it ends its script at once, unless its signal is used up as data. -/

namespace ScriptEngine

/-- For each `quit` in a log, the latest entry first: exactly if the next entry is no use of its
signal, the signal is the result and there is no next entry. -/
def QuitsReach (result : Except Stop Value) (log : List Event) : Prop :=
  ∀ later code earlier, log = later ++ .quit code :: earlier →
    (result = .ok (.quitSignal code) ∧ later = [] ↔ ¬ ∃ before use, later = before ++ [.used use])

variable {start final : Engine} {result : Except Stop Value} {log : List Event}

/-- Another entry does not stand between a `quit` and the entry behind that. -/
theorem used_behind_cons {event : Event} {later earlier : List Event} {code : Int}
    (other : event ≠ .quit code) (split : event :: log = later ++ .quit code :: earlier)
    (behind : ∀ later, log = later ++ .quit code :: earlier →
      ∃ before use, later = before ++ [.used use]) :
    ∃ before use, later = before ++ [.used use] := by
  cases later with
  | nil => exact absurd (List.cons.inj split).1 other
  | cons first later =>
    obtain ⟨before, use, rfl⟩ := behind later (List.cons.inj split).2
    exact ⟨first :: before, use, rfl⟩

/-- The entry behind a `quit` that was handed on is a use. -/
theorem HandedOn.used_behind (handed : HandedOn log) {later earlier : List Event} {code : Int}
    (split : log = later ++ .quit code :: earlier) :
    ∃ before use, later = before ++ [.used use] := by
  -- The entries behind the `quit` are taken off one by one.
  induction handed generalizing later with
  | nil => simp at split
  | statement site _ ih => exact used_behind_cons (by simp) split fun _ => ih
  | used use _ ih => exact used_behind_cons (by simp) split fun _ => ih
  | embedded keyword cursor _ ih => exact used_behind_cons (by simp) split fun _ => ih
  | @quit use other log _ ih =>
    match later, split with
    | [.used _], _ => exact ⟨[], _, rfl⟩
    | first :: second :: later, split =>
      simp only [List.cons_append, List.cons.injEq] at split
      obtain ⟨before, use, rfl⟩ := ih split.2.2
      exact ⟨first :: second :: before, use, rfl⟩

/-- In a log of handed on `quit`s none reaches the result. -/
theorem HandedOn.quitsReach (handed : HandedOn log) (result : Except Stop Value) :
    QuitsReach result log := by
  intro later code earlier split
  have used := handed.used_behind split
  refine iff_of_false ?_ (not_not_intro used)
  rintro ⟨_, rfl⟩
  obtain ⟨before, use, same⟩ := used
  simp at same

/-- Another entry behind a log of handed on `quit`s is no matter for one that has failed. -/
theorem HandedOn.quitsReach_error (handed : HandedOn log) (stop : Stop) :
    QuitsReach (.error stop) (.interrupted :: log) := by
  intro later code earlier split
  have used := used_behind_cons (by simp) split fun _ => handed.used_behind
  exact iff_of_false (by simp) (not_not_intro used)

/-- A `quit` that is the latest entry reaches the result. -/
theorem QuitsReach.latest (handed : HandedOn log) (code : Int) :
    QuitsReach (.ok (.quitSignal code)) (.quit code :: log) := by
  intro later other earlier split
  cases later with
  | nil =>
    cases split
    simp
  | cons first later =>
    -- An earlier one was handed on, so that the latest is not the next behind it.
    cases split
    have used := handed.used_behind rfl
    obtain ⟨before, use, rfl⟩ := used
    exact iff_of_false (by simp) (not_not_intro ⟨.quit code :: before, use, rfl⟩)

/-- What is handed out as a `quit` is its signal. -/
theorem Value.quitting?_quits {value signal : Value} {code : Int}
    (carried : value.quitting? = some signal) (quits : signal.QuitsWith code) :
    value = .quitSignal code := by
  have same := Option.some.inj (Value.quitting?_eq_some carried)
  subst same
  rcases quits with rfl | rfl
  · rfl
  · cases carried

/-- Where a script or a worker has ended, its `quit`s have reached the result or were used. -/
theorem Ends.quitsReach
    (ends : Ends false start Value.quitting? (Yielded false) result final) :
    ∃ new, final.events = new ++ start.events ∧ QuitsReach result new := by
  -- The last note may be the interruption or the `quit` that the result carries.
  cases result with
  | error stop =>
    rcases ends with reached | ⟨_, before, reached, rfl⟩
    · obtain ⟨new, log, handed⟩ := reached.log
      exact ⟨new, log, handed.quitsReach _⟩
    · obtain ⟨new, log, handed⟩ := reached.log
      exact ⟨.interrupted :: new, congrArg _ log, handed.quitsReach_error _⟩
  | ok value =>
    rcases ends with ⟨reached, _⟩ | ⟨signal, code, before, carried, quits, reached, rfl⟩
    · obtain ⟨new, log, handed⟩ := reached.log
      exact ⟨new, log, handed.quitsReach _⟩
    · obtain ⟨new, log, handed⟩ := reached.log
      rw [Value.quitting?_quits carried quits]
      exact ⟨.quit code :: new, congrArg _ log, .latest handed code⟩

/-- Each `quit` of a script is the end of it, with its signal as the result, exactly if the next thing
that its thread does is not to use the signal up as data. So it is with the `quit`s of a worker. -/
theorem quit_reaches_host_unless_used (interpreter : Interpreter) (source file : String)
    (isMain : Bool) :
    (∃ new, (interpreter.process source file isMain).2.engine.events =
        new ++ interpreter.engine.events ∧
      QuitsReach (interpreter.process source file isMain).1 new) ∧
    ∀ depth (launch : Launch) start result final,
      (launch.run (evaluator depth) start).MayEnd KeepsOwn result final →
        ∃ new, final.events = new ++ start.events ∧ QuitsReach result new := by
  refine ⟨?_, fun depth launch start _ _ ends => ?_⟩
  · rcases process_ends interpreter source file isMain with ⟨ended, ends, same⟩ | ⟨_, progressed⟩
    · rw [same]
      exact ends.quitsReach
    · -- A thread that pauses has no `quit` on its way.
      obtain ⟨new, log, handed⟩ := progressed.log
      exact ⟨new, log, handed.quitsReach _⟩
  · have proceeds := launch_proceeds (evaluator_lawful depth) launch (tidy_of_lax start)
    exact ((proceeds.under (fun _ _ => KeepsOwn.rely) fun _ _ => id).at_end ends).quitsReach

end ScriptEngine

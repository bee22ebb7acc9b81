import ScriptEngine.Proofs.Returns

/-! The ends of computations that are put together from others. -/

namespace ScriptEngine

variable {α β : Type} {allows : Engine → Engine → Prop} {start final : Engine}

namespace Step

/-- The ends of an evaluation in two parts are those of the second part behind those of the first. -/
theorem mayEnd_andThen {step : Step α} {next : Except Stop α → Engine → Step β}
    {result : Except Stop β} :
    (step.andThen next).MayEnd allows result final ↔
      ∃ first middle, step.MayEnd allows first middle ∧ (next first middle).MayEnd allows result final :=
  ⟨MayEnd.of_andThen, fun ⟨_, _, early, late⟩ => early.andThen late⟩

/-- Where an evaluation has ended, it has no other end. -/
theorem mayEnd_finished {first result : Except Stop α} {engine : Engine} :
    (finished first engine).MayEnd allows result final ↔ result = first ∧ final = engine := by
  refine ⟨fun ends => ?_, ?_⟩
  · cases ends
    exact ⟨rfl, rfl⟩
  · rintro ⟨rfl, rfl⟩
    exact .finished

/-- An evaluation without pauses that returns a value has no other end. -/
theorem mayEnd_ended {step : Step α} {value : α} {engine : Engine} {result : Except Stop α}
    (ended : step.ended? = some (value, engine)) :
    step.MayEnd allows result final ↔ result = .ok value ∧ final = engine := by
  unfold ended? at ended
  split at ended
  case h_1 =>
    cases ended
    exact mayEnd_finished
  case h_2 => cases ended
  case h_3 => cases ended

/-- What goes on alike behind all ends of an evaluation makes the same evaluation. -/
theorem andThen_congr {step : Step α} {next other : Except Stop α → Engine → Step β}
    (alike : ∀ result final, step.MayEnd (fun _ _ => True) result final →
      next result final = other result final) : step.andThen next = step.andThen other := by
  -- The induction is on the pauses.
  induction step with
  | finished result engine => exact alike result engine .finished
  | paused wait engine resume ih =>
    simp only [andThen, Step.paused.injEq, true_and]
    exact funext fun changed => ih changed fun result final ends => alike result final (.paused trivial ends)

end Step

namespace Eval

/-- The ends of a computation with another one behind its value. -/
theorem mayEnd_bind {body : Eval α} {next : α → Eval β} {result : Except Stop β} :
    ((body >>= next) start).MayEnd allows result final ↔
      (∃ stop, result = .error stop ∧ (body start).MayEnd allows (.error stop) final) ∨
        ∃ value middle, (body start).MayEnd allows (.ok value) middle ∧
          (next value middle).MayEnd allows result final := by
  refine Step.mayEnd_andThen.trans ⟨?_, ?_⟩
  · rintro ⟨first | first, middle, early, late⟩
    · obtain ⟨rfl, rfl⟩ := Step.mayEnd_finished.mp late
      exact .inl ⟨first, rfl, early⟩
    · exact .inr ⟨first, middle, early, late⟩
  · rintro (⟨stop, rfl, early⟩ | ⟨value, middle, early, late⟩)
    · exact ⟨_, _, early, .finished⟩
    · exact ⟨_, _, early, late⟩

/-- A computation with another one behind its value ends with a value exactly if both do. -/
theorem mayEnd_bind_ok {body : Eval α} {next : α → Eval β} {result : β} :
    ((body >>= next) start).MayEnd allows (.ok result) final ↔
      ∃ value middle, (body start).MayEnd allows (.ok value) middle ∧
        (next value middle).MayEnd allows (.ok result) final := by
  rw [mayEnd_bind]
  simp

/-- What was read in front of an end with a value is handed on. -/
theorem of_mayEnd_ofRead {read : Read α} {next : α → Eval β} {value : β}
    (ends : ((ofRead read >>= next) start).MayEnd allows (.ok value) final) :
    ∃ got, read = .ok got ∧ (next got start).MayEnd allows (.ok value) final := by
  cases read with
  | ok got => exact ⟨got, rfl, ends⟩
  | error stopped => cases ends

/-- A value is the only end of a computation that yields it at once. -/
theorem mayEnd_pure {value : α} {result : Except Stop α} :
    ((pure value : Eval α) start).MayEnd allows result final ↔ result = .ok value ∧ final = start :=
  Step.mayEnd_finished

/-- The value of a computation in another shape is that of its ends. -/
theorem mayEnd_map {body : Eval α} {shape : α → β} {result : Except Stop β} :
    ((body >>= fun value => pure (shape value)) start).MayEnd allows result final ↔
      ∃ first, (body start).MayEnd allows first final ∧ result = first.map shape := by
  -- An end without a value stays the end; a value is passed on in its shape.
  rw [mayEnd_bind]
  constructor
  · rintro (⟨stop, rfl, ends⟩ | ⟨value, middle, ends, last⟩)
    · exact ⟨_, ends, rfl⟩
    · obtain ⟨rfl, rfl⟩ := mayEnd_pure.mp last
      exact ⟨_, ends, rfl⟩
  · rintro ⟨stop | value, ends, rfl⟩
    · exact .inl ⟨stop, rfl, ends⟩
    · exact .inr ⟨value, final, ends, .finished⟩

/-- A change behind a computation is made behind each of its ends. -/
theorem mayEnd_closing {body : Eval α} {after : Engine → Engine} {result : Except Stop α} :
    (closing body after start).MayEnd allows result final ↔
      ∃ middle, (body start).MayEnd allows result middle ∧ final = after middle := by
  refine Step.mayEnd_andThen.trans ⟨?_, ?_⟩
  · rintro ⟨first, middle, early, late⟩
    obtain ⟨rfl, rfl⟩ := Step.mayEnd_finished.mp late
    exact ⟨middle, early, rfl⟩
  · rintro ⟨middle, ends, rfl⟩
    exact ⟨result, middle, ends, .finished⟩

/-- A computation in a frame of its own has the ends that it has with the frame on the stack. -/
theorem mayEnd_withFrame {kind : FrameKind} {body : Eval α} {result : Except Stop α} :
    (withFrame kind body start).MayEnd allows result final ↔
      ∃ middle, (body { start with stack := (start.stack.push kind).1 }).MayEnd allows result middle ∧
        final = { middle with stack := middle.stack.pop (start.stack.push kind).2 } :=
  mayEnd_closing

/-- Behind the end of a call, only the log of the calls has changed. -/
theorem mayEnd_inFrame {function : String} {body : Eval α} {result : Except Stop α}
    (ends : (inFrame function body start).MayEnd allows result final) :
    ∃ first middle log, (body start).MayEnd allows first middle ∧
      final = { middle with callLog := log } := by
  obtain ⟨first, middle, early, late⟩ := Step.mayEnd_andThen.mp ends
  refine ⟨first, middle, ?_⟩
  -- Giving up leaves the log alone; every other end is noted in it.
  rcases first with (failure | _) | value
  · obtain ⟨_, rfl⟩ := Step.mayEnd_finished.mp late
    exact ⟨_, early, rfl⟩
  · obtain ⟨_, rfl⟩ := Step.mayEnd_finished.mp late
    exact ⟨final.callLog, early, rfl⟩
  · obtain ⟨_, rfl⟩ := Step.mayEnd_finished.mp late
    exact ⟨_, early, rfl⟩

end Eval

end ScriptEngine

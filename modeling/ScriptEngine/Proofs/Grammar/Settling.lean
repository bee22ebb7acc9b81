import ScriptEngine.Eval.Evaluator
import ScriptEngine.Proofs.Step

/-! Evaluations that come to an end and change nothing but the log. -/

namespace ScriptEngine

variable {α β : Type} {base engine other : Engine} {body : Eval α} {result : Result α}

/-- Two interpreters differ at most in what they have noted. -/
def Engine.Alike (engine other : Engine) : Prop :=
  ∃ (events : List Event) (signalUses : List Use), other = { engine with events, signalUses }

namespace Engine.Alike

/-- An interpreter is like itself. -/
theorem refl (engine : Engine) : engine.Alike engine := ⟨engine.events, engine.signalUses, rfl⟩

/-- Noting the use of a signal changes nothing else. -/
theorem noteUse (alike : base.Alike engine) (use : Use) : base.Alike (engine.noteUse use) := by
  obtain ⟨events, signalUses, rfl⟩ := alike
  exact ⟨_, _, rfl⟩

/-- What a name stands for is not noted. -/
theorem resolve? (alike : base.Alike engine) (name file : String) :
    engine.resolve? name file = base.resolve? name file := by
  obtain ⟨events, signalUses, rfl⟩ := alike
  rfl

/-- What is defined is not noted. -/
theorem symbols (alike : base.Alike engine) : engine.symbols = base.symbols := by
  obtain ⟨events, signalUses, rfl⟩ := alike
  rfl

end Engine.Alike

/-- An evaluation ends with a result, and leaves an interpreter like the one that it is about. -/
def Settles (base : Engine) (body : Eval α) (result : Result α) : Prop :=
  ∀ engine, base.Alike engine →
    ∃ after, base.Alike after ∧ body engine = .finished (result.mapError .failed) after

namespace Settles

/-- A value is one. -/
theorem pure (base : Engine) (value : α) : Settles base (pure value) (.ok value) :=
  fun engine alike => ⟨engine, alike, rfl⟩

/-- A result is one. -/
theorem ofResult (base : Engine) (result : Result α) : Settles base (Eval.ofResult result) result := by
  intro engine alike
  cases result with
  | ok value => exact ⟨engine, alike, rfl⟩
  | error failure => exact ⟨engine, alike, rfl⟩

/-- The use of a value is at most noted. -/
theorem use (base : Engine) (use : Use) (value : Value) :
    Settles base (Eval.use use value) (.ok value) := by
  intro engine alike
  -- The use of a signal is noted, and that of any other value leaves the interpreter as it is.
  cases signal : value.isSignal with
  | true =>
    refine ⟨engine.noteUse use, alike.noteUse use, ?_⟩
    simp only [Eval.use, signal]
    rfl
  | false =>
    refine ⟨engine, alike, ?_⟩
    simp only [Eval.use, signal]
    rfl

/-- One evaluation goes on behind another with its value, and does not behind a failure. -/
theorem bind {next : α → Eval β} {final : α → Result β} (first : Settles base body result)
    (second : ∀ value, result = .ok value → Settles base (next value) (final value)) :
    Settles base (body >>= next) (result.bind final) := by
  intro engine alike
  obtain ⟨middle, alikeMiddle, ran⟩ := first engine alike
  -- Only behind a value does the second computation run.
  cases result with
  | error failure =>
    exact ⟨middle, alikeMiddle, Eval.bind_error ran next⟩
  | ok value =>
    obtain ⟨after, alikeAfter, ranToo⟩ := second value rfl middle alikeMiddle
    exact ⟨after, alikeAfter, (Eval.bind_ok ran next).trans ranToo⟩

/-- An evaluation goes on behind a value. -/
theorem bind_ok {value : α} {next : α → Eval β} {final : Result β}
    (first : Settles base body (.ok value)) (second : Settles base (next value) final) :
    Settles base (body >>= next) final := by
  have whole : Settles base (body >>= next) ((Except.ok value).bind fun _ => final) := by
    refine first.bind fun _ same => ?_
    cases same
    exact second
  exact whole

/-- An evaluation does not go on behind a failure. -/
theorem bind_error {failure : Failure} {next : α → Eval β} (first : Settles base body (.error failure)) :
    Settles base (body >>= next) (.error failure) := by
  intro engine alike
  obtain ⟨after, alikeAfter, ran⟩ := first engine alike
  exact ⟨after, alikeAfter, Eval.bind_error ran next⟩

/-- What an evaluation yields is passed on in another shape. -/
theorem map (first : Settles base body result) (shape : α → β) :
    Settles base (body >>= fun value => Pure.pure (shape value)) (result.map shape) := by
  cases result with
  | error failure => exact first.bind_error
  | ok value => exact first.bind_ok (.pure base _)

/-- A computation that looks at the interpreter sees one that is like its own. -/
theorem get_bind {next : Engine → Eval β} {final : Result β}
    (goesOn : ∀ engine, base.Alike engine → Settles base (next engine) final) :
    Settles base ((get : Eval Engine) >>= next) final :=
  fun engine alike => goesOn engine alike engine alike

end Settles

end ScriptEngine

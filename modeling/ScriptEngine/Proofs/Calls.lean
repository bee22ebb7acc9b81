import ScriptEngine.Proofs.Quit
import ScriptEngine.Proofs.Returns
import ScriptEngine.Proofs.Signals

/-! What calls hand out: a signal that a loop of the caller would take for its own only if the body has
returned it as a value. -/

namespace ScriptEngine

/-- A value is a signal that a loop, a `switch` or a call around it would take for its own. -/
def Value.leaks (value : Value) : Bool :=
  match value.data with
  | .breakSignal => true
  | .continueSignal => true
  | .returnSignal _ => true
  | _ => false

variable {eval : Evaluator} {start final engine : Engine} {function : ScriptFunction}
  {args : List Arg} {this : Option Value} {value : Value}

/-- Such a signal is one other than that to quit. -/
theorem Value.leaks_iff : value.leaks = true ↔ value.isSignal = true ∧ value.quitCode? = none := by
  unfold leaks isSignal quitCode?
  cases value.data <;> simp

/-- The outcome of a body is such a signal exactly if the body has returned one. -/
theorem Value.leaks_outcome_iff :
    value.outcome.leaks = true ↔ ∃ held, value.data = .returnSignal held ∧ held.leaks = true := by
  unfold outcome
  split
  case h_1 inner same => simp [same]
  case h_2 same => simp [same, leaks, null, ofData]
  case h_3 same => simp [same, leaks, null, ofData]
  case h_4 returns breaks continues =>
    unfold leaks
    split <;> simp_all

/-- The outcome of a trusted value is such a signal only if a signal has been the operand of a
`return`. -/
theorem Engine.Trusts.returned_of_leaks (trusts : engine.Trusts value)
    (leaks : value.outcome.leaks = true) : .returned ∈ engine.signalUses := by
  obtain ⟨signal, other⟩ := Value.leaks_iff.mp leaks
  -- Of the signals, only one that was returned holds another signal.
  cases trusts.sound with
  | clean clean =>
    rw [Value.outcome_of_plain clean.plain, clean.plain] at signal
    cases signal
  | breakSignal => cases leaks
  | continueSignal => cases leaks
  | quitSignal code => cases leaks
  | @returnSignal held _ =>
    have other : held.quitCode? = none := other
    refine (trusts.2 held rfl signal).resolve_left fun quits => ?_
    rw [other] at quits
    cases quits

/-- A call is recorded before its body runs. -/
theorem Returns.entered {name : String} (returns : Returns (enterCall name) start () final) :
    final = start.recordCall name := by
  unfold enterCall at returns
  have returns := returns.look
  dsimp only at returns
  split at returns
  · obtain ⟨_, _, stops, _⟩ := returns.bind
    exact stops.failed.elim
  · cases returns
    rfl

/-- The interpreter that the body of a call starts in. -/
def Engine.within (engine : Engine) (function : ScriptFunction) : Engine :=
  { engine.recordCall function.name with
    stack := (engine.stack.push (.call function.name function.scope)).1 }

/-- The body of a call has returned in a frame of its own, and its outcome is that of the call. -/
theorem Returns.called (returns : Returns (callFunction eval function args this) start value final) :
    ∃ bound last middle, bindArgs function.name function.params args = .ok bound ∧
      Returns (runCallee eval function bound this) (start.within function) last middle ∧
      value = last.outcome := by
  obtain ⟨bound, bounds, returns⟩ := returns.compute
  obtain ⟨_, _, entered, returns⟩ := returns.bind
  obtain ⟨last, ran, same⟩ := returns.mapped
  obtain ⟨_, ran, _⟩ := ran.inFrame
  obtain ⟨left, ran, _⟩ := ran.closing
  obtain ⟨middle, ran⟩ := ran.withFrame
  rw [entered.entered] at ran
  exact ⟨bound, last, middle, bounds, ran, same.symm⟩

/-- What a constructor has made is an object. -/
theorem Returns.instantiated {definition : ClassDef}
    (returns : Returns (instantiate eval definition args) start value final) :
    value.isSignal = false := by
  have returns := returns.look.replace
  -- With a constructor or without one, the handle of the new instance is handed out.
  split at returns
  · obtain ⟨_, _, _, returns⟩ := returns.bind
    obtain ⟨_, _, returns⟩ := returns.use
    rw [← returns.done.1]
    rfl
  · split at returns
    · rw [← returns.done.1]
      rfl
    · exact returns.failed.elim

/-- Whatever its arguments and its receiver are, a call hands out a `break`, a `continue` or a `return` of
its body exactly if the body has returned such a signal as a value. In a neat interpreter this takes a
signal that was the operand of a `return`, or was used where it can be stored. What a constructor has made
is no signal at all. -/
theorem calls_contain_signals_unless_returned (depth : Nat) (function : ScriptFunction)
    (args : List Arg) (this : Option Value) (start : Engine) :
    (∀ value final, Returns (callFunction (evaluator depth) function args this) start value final →
      ∃ bound last middle, bindArgs function.name function.params args = .ok bound ∧
        Returns (runCallee (evaluator depth) function bound this) (start.within function) last middle ∧
        (value.leaks = true ↔ ∃ held, last.data = .returnSignal held ∧ held.leaks = true)) ∧
    (start.Neat → CleanArgs args → (∀ receiver, this = some receiver → receiver.Clean) →
      ∀ value final,
        (callFunction (evaluator depth) function args this start).MayEnd (Rely true) (.ok value) final →
        value.leaks = true → ∃ use ∈ final.signalUses, use = .returned ∨ use.stores = true) ∧
    ∀ definition value final,
      Returns (instantiate (evaluator depth) definition args) start value final →
        value.isSignal = false := by
  refine ⟨fun value final returns => ?_, fun neat argsClean thisClean value final ends leaks => ?_,
    fun _ _ _ returns => returns.instantiated⟩
  · obtain ⟨bound, last, middle, bounds, ran, rfl⟩ := returns.called
    exact ⟨bound, last, middle, bounds, ran, Value.leaks_outcome_iff⟩
  · have proceeds : Proceeds true start Value.quitting?
        (fun value now => now.Exempt true ∨ (value.leaks = true → .returned ∈ now.signalUses))
        (callFunction (evaluator depth) function args this) start :=
      callFunction_proceeds (evaluator_lawful depth) (.inr neat) function (.inr argsClean)
        (fun receiver given => .inr (thisClean receiver given))
        fun _ _ trusted => trusted.imp_right Engine.Trusts.returned_of_leaks
    rcases Step.Ensures.at_end proceeds ends with ⟨_, (lax | ⟨use, used, stores⟩) | returned⟩ |
      ⟨signal, code, _, carried, quits, _⟩
    · cases lax
    · exact ⟨use, used, .inr stores⟩
    · exact ⟨.returned, returned leaks, .inl rfl⟩
    · -- The signal of a `quit` is no other's own.
      rw [Value.quitting?_quits carried quits] at leaks
      cases leaks

/-- A function that returns the signal to leave a loop. -/
def breaking : ScriptFunction := ⟨"f", [], "return break;".toList, ⟨"main", 1⟩, none, none⟩

/-- The function hands the signal out, a signal was the operand of its `return`, and its body has returned
such a signal. -/
theorem calls_contain_signals_unless_returned_break :
    ∃ value final, Returns (callFunction (evaluator 9) breaking [] none) (.new {} {}) value final ∧
      value.leaks = true ∧ (∃ use ∈ final.signalUses, use = .returned ∨ use.stores = true) ∧
      ∃ bound last middle, bindArgs breaking.name breaking.params [] = .ok bound ∧
        Returns (runCallee (evaluator 9) breaking bound none) ((Engine.new {} {}).within breaking)
          last middle ∧
        ∃ held, last.data = .returnSignal held ∧ held.leaks = true := by
  -- The run is carried out once; what it hands out follows from the theorem above.
  have seen : ((callFunction (evaluator 9) breaking [] none (.new {} {})).ended?.map
      (·.1.leaks)) = some true := by decide +kernel
  obtain ⟨⟨value, final⟩, ended, leaks⟩ := Option.map_eq_some_iff.mp seen
  have returns := Returns.of_ended ended
  have contained := calls_contain_signals_unless_returned 9 breaking [] none (.new {} {})
  obtain ⟨bound, last, middle, bounds, ran, same⟩ := contained.1 value final returns
  exact ⟨value, final, returns, leaks,
    contained.2.1 (Engine.neat_new {} {}) (by simp [CleanArgs]) (by simp) value final
      (.of_ended ended) leaks,
    bound, last, middle, bounds, ran, same.mp leaks⟩

/-- A script whose function returns the signal to leave a loop, which it calls within a loop. -/
def breakingLoop : String :=
  "function f() { return break; } for (x in ['a', 'b']) { last = x; f(); }"

/-- The call ends the loop of its caller. -/
theorem returned_break_ends_loop :
    (((Interpreter.new {} {}).process breakingLoop "main" true).2.engine.valueOf? "last" "main").map
      Value.display = some "a" := by
  decide +kernel

end ScriptEngine

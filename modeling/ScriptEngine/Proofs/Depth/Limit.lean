import ScriptEngine.Proofs.Account.Phrases
import ScriptEngine.Proofs.Depth.Recursion

/-! What the limit on calls bounds and what it does not. No phrase starts with more active calls than it
admits, and a call beyond it fails. But neither the inclusion of a file nor an accessor that is an
expression is a call, and scripts recurse through both without end. -/

namespace ScriptEngine

/-- An interpreter has the active calls and the configuration of an earlier one. -/
structure KeepsCalls (engine changed : Engine) : Prop where
  calls : changed.calls = engine.calls
  config : changed.config = engine.config

/-- At most `limit` calls are active, and the configuration admits no more of them. -/
structure Engine.Within (limit : Nat) (engine : Engine) : Prop where
  calls : engine.calls.length ≤ limit
  admitted : engine.config.maxCallDepth ≤ limit

namespace KeepsCalls

variable {start engine now : Engine} {limit : Nat}

theorem refl (engine : Engine) : KeepsCalls engine engine := ⟨rfl, rfl⟩

theorem trans (first : KeepsCalls start engine) (next : KeepsCalls engine now) :
    KeepsCalls start now :=
  ⟨next.calls.trans first.calls, next.config.trans first.config⟩

/-- Calls that are kept stay within a limit. -/
theorem within (keeps : KeepsCalls engine now) (within : engine.Within limit) : now.Within limit :=
  ⟨keeps.calls ▸ within.calls, keeps.config ▸ within.admitted⟩

/-- An entry in the log of the calls is no call. -/
theorem noteCall (keeps : KeepsCalls engine now) (event : CallEvent) :
    KeepsCalls engine (now.noteCall event) :=
  ⟨keeps.calls, keeps.config⟩

/-- Where the calls within a call are kept, leaving it keeps those around it. -/
theorem leave {function : String} (keeps : KeepsCalls (engine.recordCall function) now) :
    KeepsCalls engine now.exitCall := by
  refine ⟨?_, keeps.config⟩
  simp [Engine.exitCall, keeps.calls, Engine.recordCall]

end KeepsCalls

/-- What comes in from elsewhere keeps the calls. -/
theorem Engine.keepsCalls_receive (engine : Engine) (stop : Stop) :
    KeepsCalls engine (engine.receive stop) := by
  unfold receive
  repeat' split
  all_goals exact ⟨rfl, rfl⟩

/-- Within a limit on the calls, evaluations start within it and come back to their calls. -/
def Account.within (limit : Nat) : Account where
  admits := Engine.Within limit
  rely := KeepsCalls
  ends start _ now := KeepsCalls start now
  refl := KeepsCalls.refl
  trans := KeepsCalls.trans
  settles keeps quiet := keeps.trans ⟨quiet.calls, quiet.config⟩
  admitted := KeepsCalls.within
  meanwhile := id
  receives := Engine.keepsCalls_receive
  enters function within below := by
    refine ⟨?_, within.admitted⟩
    exact Nat.le_trans below within.admitted
  returns keeps := keeps.leave.noteCall _
  unwinds keeps := keeps.leave.noteCall _
  exhausts keeps := keeps.leave
  handles keeps := ⟨keeps.calls, keeps.noteCall _⟩

/-- Runs phrases as `evaluator` does, but `instead` in place of each phrase that starts with more than
`limit` active calls. -/
def divertedEvaluator (limit : Nat) (instead : Evaluator) : Nat → Evaluator
  | 0, _, _ => throw .exhausted
  | depth + 1, phrase, cursor => do
    if limit < (← get).calls.length then instead phrase cursor
    else match phrase with
      | .expression => evaluateExpression (divertedEvaluator limit instead depth) cursor
      | .statement => runStatement (divertedEvaluator limit instead depth) cursor

/-- Within a limit, it is no matter what is run beyond it. -/
theorem divertedEvaluator_agrees (limit : Nat) (instead : Evaluator) (depth : Nat) :
    (divertedEvaluator limit instead depth).Agrees (.within limit) (evaluator depth) := by
  -- The induction is on the nesting of the phrases.
  induction depth with
  | zero => exact fun _ _ => .exhausted
  | succ depth ih =>
    intro phrase cursor engine within
    -- The phrase itself is within the limit, so that only those nested in it could be diverted.
    have straight : divertedEvaluator limit instead (depth + 1) phrase cursor engine =
        (match phrase with
          | .expression => evaluateExpression (divertedEvaluator limit instead depth) cursor
          | .statement => runStatement (divertedEvaluator limit instead depth) cursor) engine := by
      unfold divertedEvaluator
      rw [Eval.get_bind, if_neg (Nat.not_lt.mpr within.calls)]
    unfold AgreeAt
    rw [straight]
    cases phrase with
    | expression => exact evaluateExpression_agree ih cursor engine within
    | statement => exact runStatement_agree ih cursor engine within

/-- A call fails if as many calls are active as the configuration admits, and changes nothing. -/
theorem callFunction_overflows {eval : Evaluator} {function : ScriptFunction} {args : List Arg}
    {this : Option Value} {bound : Bound} {engine : Engine}
    (binds : bindArgs function.name function.params args = .ok bound)
    (full : engine.config.maxCallDepth ≤ engine.calls.length) :
    callFunction eval function args this engine =
      .finished (.error (.failed (Cause.stackOverflow engine.calls.length engine.config.maxCallDepth)))
        engine := by
  -- The call is refused when it is entered, before its frame is there.
  have refused : enterCall function.name engine =
      .finished (.error (.failed (Cause.stackOverflow engine.calls.length engine.config.maxCallDepth)))
        engine := by
    unfold enterCall
    rw [Eval.get_bind]
    simp only [full, if_true]
    rfl
  unfold callFunction
  rw [binds]
  exact Eval.bind_error refused _

/-- No phrase that is nested in a phrase within the limit on calls starts beyond it: what would run there
has no part in how the phrase can end. A call at the limit fails and changes nothing, and so does an
accessor that is a function. -/
theorem call_limit_bounds_calls (limit : Nat) (instead : Evaluator) (depth : Nat) (start : Engine)
    (within : start.Within limit) :
    (∀ phrase cursor result final,
      (divertedEvaluator limit instead depth phrase cursor start).MayEnd KeepsCalls result final ↔
        (evaluator depth phrase cursor start).MayEnd KeepsCalls result final) ∧
    (start.config.maxCallDepth ≤ start.calls.length →
      (∀ function args this bound, bindArgs function.name function.params args = .ok bound →
        callFunction (evaluator depth) function args this start =
          .finished (.error (.failed
            (Cause.stackOverflow start.calls.length start.config.maxCallDepth))) start) ∧
      ∀ site receiver name assigned function bound,
        start.resolve? name site.file = some (.function function) →
        bindArgs function.name function.params ((receiver :: assigned.toList).map .positional) =
          .ok bound →
        runAccessor (evaluator depth) site receiver (.function name) assigned start =
          .finished (.error (.failed
            (Cause.stackOverflow start.calls.length start.config.maxCallDepth))) start) := by
  refine ⟨fun phrase cursor result final => ?_, fun full =>
    ⟨fun function args this bound binds => callFunction_overflows binds full,
      fun site receiver name assigned function bound names binds => ?_⟩⟩
  · -- The two evaluators agree within the limit, in both directions.
    have alike := divertedEvaluator_agrees limit instead depth phrase cursor start within
    exact ⟨fun ends => (alike.mayEnd ends).1, fun ends => (alike.symm.mayEnd ends).1⟩
  · unfold runAccessor
    dsimp only
    rw [Eval.get_bind, names]
    exact callFunction_overflows binds full

/-- A function without parameters and statements. -/
def idleFunction : ScriptFunction := ⟨"f", [], [], ⟨"a", 1⟩, none, none⟩

/-- An interpreter in the only call that its configuration admits. -/
def withinOnlyCall : Engine where
  config := { maxCallDepth := 1 }
  symbols := ({} : SymbolTable).setGlobal "f" (.function idleFunction)
  calls := ["f"]

/-- Within the only call that is admitted, the text of another call would do the same whatever ran beyond
it, and the call fails, as one that an accessor makes does. -/
theorem call_limit_bounds_calls_withinOnlyCall :
    withinOnlyCall.Within 1 ∧
    (∀ instead result final,
      (divertedEvaluator 1 instead 5 .expression (.ofText ⟨"a", 1⟩ "f()".toList)
          withinOnlyCall).MayEnd KeepsCalls result final ↔
        (evaluator 5 .expression (.ofText ⟨"a", 1⟩ "f()".toList) withinOnlyCall).MayEnd
          KeepsCalls result final) ∧
    withinOnlyCall.config.maxCallDepth ≤ withinOnlyCall.calls.length ∧
    callFunction (evaluator 5) idleFunction [] none withinOnlyCall =
      .finished (.error (.failed (Cause.stackOverflow 1 1))) withinOnlyCall ∧
    withinOnlyCall.resolve? "f" "a" = some (.function idleFunction) ∧
    runAccessor (evaluator 5) ⟨"a", 1⟩ .null (.function "f") none withinOnlyCall =
      .finished (.error (.failed (Cause.stackOverflow 1 1))) withinOnlyCall := by
  have within : withinOnlyCall.Within 1 := ⟨by decide, by decide⟩
  have full : withinOnlyCall.config.maxCallDepth ≤ withinOnlyCall.calls.length := by decide
  have named : withinOnlyCall.resolve? "f" "a" = some (.function idleFunction) := by rfl
  obtain ⟨called, accessed⟩ :=
    (call_limit_bounds_calls 1 (evaluator 0) 5 withinOnlyCall within).2 full
  exact ⟨within,
    fun instead => (call_limit_bounds_calls 1 instead 5 withinOnlyCall within).1 .expression _,
    full, called idleFunction [] none ⟨[], []⟩ rfl,
    named, accessed ⟨"a", 1⟩ .null "f" none idleFunction _ named rfl⟩

/-! What is no call is not bounded. -/

/-- A new interpreter runs accessors. -/
theorem runsAccessors_new (config : Config) (files : FileTree) :
    (Engine.new config files).RunsAccessors := ⟨rfl, Nat.le_refl 0⟩

/-- A file tree with a file that includes itself. -/
def selfIncluding : FileTree := ⟨[("a", selfInclusion)]⟩

/-- A value with a property whose expression reads the property. -/
def selfReferring : Value where
  data := .null
  computed := ⟨[("p", { getter := some (.expression selfReference) })]⟩

/-- The file that includes itself is found. -/
theorem read_selfIncluding : selfIncluding.read "a" = .ok selfInclusion := by
  -- The path has one part, which is a file and no directory.
  have parts : FileTree.parts "a" = ["a"] := by simp [FileTree.parts, splitOn_a]
  have file : selfIncluding.file? ["a"] = some selfInclusion := by
    simp [FileTree.file?, FileTree.entries, selfIncluding, parts]
  have plain : selfIncluding.isDirectory ["a"] = false := by
    simp [FileTree.isDirectory, FileTree.entries, selfIncluding, parts]
  have walked : selfIncluding.walk [] ["a"] = .ok ["a"] := by
    unfold FileTree.walk
    simp [plain, file]
    decide
  unfold FileTree.read
  rw [parts, walked, if_neg (by decide), if_neg (by decide), if_neg (by decide),
    if_neg (by decide +kernel)]
  simp only [ok_bind, file]
  rw [if_neg (by decide +kernel)]
  rfl

/-- A file that includes itself, and a property whose expression reads the property, use up any nesting in
a new interpreter of any configuration, and no call is active on their account: neither fails for the
limit on calls. -/
theorem self_reference_is_no_call :
    (selfIncluding.read "a" = .ok selfInclusion ∧
      ∀ depth config, ∃ final : Engine,
        runScript (evaluator depth) selfInclusion "a" true (Engine.new config selfIncluding) =
          .finished (.error .exhausted) final ∧ final.calls = []) ∧
    (selfReferring.getter? "p" = some (.expression selfReference) ∧
      ∀ depth config files site, ∃ final : Engine,
        getProperty (evaluator depth) site selfReferring "p" (Engine.new config files) =
          .finished (.error .exhausted) final ∧ final.calls = []) := by
  refine ⟨⟨read_selfIncluding, fun depth config => ?_⟩, rfl, fun depth config files site =>
    (runsAccessors_new config files).getProperty_exhausts rfl depth⟩
  have main : ({ (Engine.new config selfIncluding).resetCancel with
      mainFile := some "a" } : Engine).FindsItself :=
    ⟨rfl, rfl, rfl, rfl, read_selfIncluding⟩
  exact main.runScript_exhausts fun fewer _ => Engine.FindsItself.includeFile_exhausts fewer

end ScriptEngine

import ScriptEngine.Eval.Branch
import ScriptEngine.Eval.TryCatch
import ScriptEngine.Proofs.Eval.Function

/-! How `if` chains, `switch` and the handling of failures proceed. -/

namespace ScriptEngine

variable {strict : Bool} {engine : Engine} {eval : Evaluator}

/-- The body of a branch yields null or the signal that ends it. -/
theorem runBranch_yields (lawful : eval.Lawful strict) (tidy : engine.Tidy strict) (site : Site)
    (body : List Char) (behind : Cursor) :
    Yields strict engine (do return ((← runText eval site body).signalOrNull, behind)) engine := by
  refine .bindYielded (runAll_yields lawful tidy _) fun value now settled => ?_
  exact .settled (settled.signalOrNull rfl rfl)

/-- An `if` chain yields null or the signal that ends its branch. -/
theorem runChain_yields (lawful : eval.Lawful strict) (clauses : Nat) :
    ∀ {engine : Engine} {cursor : Cursor}, engine.Tidy strict →
      Yields strict engine (runChain eval clauses cursor) engine := by
  -- The induction is on the number of conditions that may still follow.
  induction clauses with
  | zero => exact fun tidy => .failed (.refl tidy)
  | succ clauses ih =>
    intro engine cursor tidy
    refine .read (.refl tidy) fun ⟨condition, headed⟩ _ => ?_
    refine .bind (evaluateAs_runs lawful tidy .condition _ _) fun value now reached _ => ?_
    have tidy := reached.tidy
    dsimp only
    split
    · refine .read (.refl tidy) fun ⟨body, behind⟩ _ => ?_
      refine .bindYielded (runAll_yields lawful tidy _) fun value now settled => ?_
      refine .readBehind settled rfl fun next _ => .settled ?_
      exact settled.signalOrNull rfl rfl
    · refine .read (.refl tidy) fun next _ => ?_
      split
      · exact ih tidy
      · split
        · exact ih tidy
        · refine .read (.refl tidy) fun ⟨body, behind⟩ _ => ?_
          exact runBranch_yields lawful tidy _ _ behind
      · exact .done (.refl tidy) (.of_clean rfl (.inr Value.clean_null))

/-- What is skipped changes nothing. -/
theorem skipCases_runs (tidy : engine.Tidy strict) (cursor : Cursor) :
    Runs strict engine (fun _ _ => True) (skipCases cursor) engine := by
  refine .read (.refl tidy) fun next _ => ?_
  split
  · exact .done (.refl tidy) trivial
  · exact .failed (.refl tidy)

/-- The labels and statements of a `switch` yield null or the signal that leaves it. -/
theorem runCases_yields (lawful : eval.Lawful strict) (subject : Value) (count : Nat) :
    ∀ {engine : Engine} {running : Bool} {cursor : Cursor}, engine.Tidy strict →
      Yields strict engine (runCases eval subject count running cursor) engine := by
  -- The induction is on the number of labels and statements that may still follow.
  induction count with
  | zero => exact fun tidy => .failed (.refl tidy)
  | succ count ih =>
    intro engine running cursor tidy
    have null : ∀ {engine : Engine}, engine.Tidy strict →
        Yields strict engine (pure Value.null) engine :=
      fun tidy => .done (.refl tidy) (.of_clean rfl (.inr Value.clean_null))
    unfold runCases
    dsimp only
    split
    · -- Behind the last statement, and behind a `break`, the `switch` has yielded null.
      exact null tidy
    · split
      · refine .bind (evaluateAt_runs lawful tidy .label _) fun result now reached _ => ?_
        exact .read (.refl reached.tidy) fun next _ => ih reached.tidy
      · exact .read (.refl tidy) fun next _ => ih tidy
      · split
        · refine .bindYielded (lawful .statement _ _ tidy) fun ⟨value, next⟩ now settled => ?_
          dsimp only
          split
          case isTrue isBreak =>
            -- A `quit` is no `break`.
            have other : ∀ code, ¬ value.QuitsWith code := by
              rintro code (rfl | rfl) <;> cases isBreak
            obtain ⟨reached, _⟩ := settled.unless_quits rfl other
            exact (null reached.tidy).after reached
          case isFalse =>
            split
            · exact .settled (settled.keep rfl rfl)
            case isFalse plain =>
              -- The signal of a `quit` would have left the `switch`.
              obtain ⟨reached, _⟩ := settled.unless_quits rfl fun _ quits => plain quits.isSignal
              exact (ih reached.tidy).after reached
        · exact .bind (skipCases_runs tidy _) fun next now reached _ => ih reached.tidy

/-- A `switch` yields null or the signal that leaves it. -/
theorem runSwitch_yields (lawful : eval.Lawful strict) (tidy : engine.Tidy strict)
    (cursor : Cursor) : Yields strict engine (runSwitch eval cursor) engine := by
  refine .read (.refl tidy) fun ⟨text, headed⟩ _ => ?_
  refine .bind (evaluateAs_runs lawful tidy .subject _ _) fun subject now reached _ => ?_
  refine .read (.refl reached.tidy) fun ⟨body, behind⟩ _ => ?_
  exact yields_behind behind (runCases_yields lawful subject _ reached.tidy)

/-- What a handler gets for a failure is clean. -/
theorem Failure.clean_caught (failure : Failure) : failure.caught.Clean :=
  (Value.clean_string _).setField _ (Value.clean_string _)

/-- The names of a handler are bound to clean values. -/
theorem bindFailure_runs (tidy : engine.Tidy strict) (file : String) (failure : Failure)
    (names : List String) :
    Runs strict engine (fun _ _ => True) (bindFailure file failure names) engine := by
  have binds : ∀ {engine : Engine} {value : Value} (name : Option String), engine.Tidy strict →
      value.Clean → Runs strict engine (fun _ _ => True) (bindCaught file value name) engine := by
    intro engine value name tidy clean
    cases name with
    | none => exact .done (.refl tidy) trivial
    | some name => exact .changed (defineLocal_moved name file (.inr clean) tidy) trivial
  -- The failure is bound under the first name and its text under the second.
  refine .bind (binds _ tidy failure.clean_caught) fun _ now reached _ => ?_
  exact binds _ reached.tidy (Value.clean_string _)

/-- When what ran has left its frames and calls, there is nothing to unwind. -/
theorem Reached.unwindTo {start now : Engine} (reached : Reached strict start now) :
    now.unwindTo start.stack.depth start.calls.length = now.noteCall .handled := by
  have depth := reached.stack.depth
  have calls := congrArg List.length reached.calls
  unfold ScopeStack.depth at depth
  simp [Engine.unwindTo, Engine.noteCall, ScopeStack.truncate, ScopeStack.depth, depth, calls]

/-- A body with a handler yields what the body or the handler does. -/
theorem runGuarded_yields (lawful : eval.Lawful strict) (tidy : engine.Tidy strict) (site : Site)
    (body : List Char) (names : List String) (handler : List Char) :
    Yields strict engine (runGuarded eval site body names handler) engine := by
  refine .look ?_
  refine .attempt (runAll_yields lawful tidy _) (fun value now settled => .settled settled)
    fun failure now stopped => ?_
  dsimp only
  split
  · exact .stopped stopped
  case isFalse other =>
    have reached := stopped.reached (decide_eq_false other)
    refine .after reached ?_
    -- Unwinding has no effect, since the body has left nothing behind.
    have same := reached.unwindTo
    have noted := Moved.noteCall .handled reached.tidy
    refine .change (by rw [same]; exact noted) ?_
    rw [same]
    refine .bind (bindFailure_runs noted.tidy site.file failure names) fun _ now reached _ => ?_
    exact runAll_yields lawful reached.tidy _

/-- A `try` statement yields what its body or its handler does. -/
theorem runTry_yields (lawful : eval.Lawful strict) (tidy : engine.Tidy strict)
    (cursor : Cursor) : Yields strict engine (runTry eval cursor) engine := by
  refine .read (.refl tidy) fun ⟨body, next⟩ _ => ?_
  dsimp only
  split
  · exact .failed (.refl tidy)
  · refine .read (.refl tidy) fun ⟨header, headed⟩ _ => ?_
    dsimp only
    split
    · exact .failed (.refl tidy)
    · refine .read (.refl tidy) fun ⟨handler, behind⟩ _ => ?_
      exact yields_behind behind (runGuarded_yields lawful tidy _ _ _ _)

end ScriptEngine

import ScriptEngine.Eval.Evaluator
import ScriptEngine.Proofs.Eval.Statement

/-! How expressions proceed, and with them every phrase. -/

namespace ScriptEngine

variable {strict : Bool} {engine : Engine} {eval : Evaluator}

/-- Signs make a clean value of a value that is used up. -/
theorem clean_applySigns {value result : Value} {signs : List Sign}
    (ran : applySigns value signs = .ok result) (some : signs ≠ []) : result.Clean := by
  cases signs with
  | nil => exact absurd rfl some
  | cons sign inner =>
    obtain ⟨operand, _, ran⟩ := ok_of_bind ran
    -- Each sign makes a truth value or a number of what is behind it, and both are clean.
    unfold Sign.apply at ran
    split at ran <;> cases ran
    · exact Value.clean_ofBool _
    · exact Value.clean_number _

/-- An operand yields its value from wherever it starts. -/
abbrev YieldsAnywhere (strict : Bool) (operand : Cursor → Eval (Value × Cursor)) : Prop :=
  ∀ {engine : Engine} (cursor : Cursor), engine.Tidy strict → Yields strict engine (operand cursor) engine

/-- Two operands are used up, which leaves a clean value. -/
theorem joinOperand_runs {operand : Cursor → Eval (Value × Cursor)}
    (operands : YieldsAnywhere strict operand) {start : Engine} {left : Value} {before : Cursor}
    (settled : HasYielded strict start (left, before) engine) (operator : Operator)
    (behind : Cursor) :
    Runs strict start (Yielded strict) (joinOperand operand left operator behind) engine := by
  -- A truth value that decides the operator is the result, or else that of the right operand is.
  have truth : ∀ {now : Engine} {behind : Cursor} (holds : Bool), now.Tidy strict →
      Runs strict now (Yielded strict) (pure (Value.ofBool holds, behind)) now := fun holds tidy =>
    .done (.refl tidy) (.of_clean rfl (.inr (Value.clean_ofBool holds)))
  -- The right operand is used up for its truth.
  have right : ∀ {now : Engine}, now.Tidy strict →
      Runs strict now (Yielded strict) (truthOf operand behind) now := by
    intro now tidy
    refine .bindYielded (operands behind tidy) fun ⟨right, next⟩ now settled => ?_
    refine .use settled rfl fun now reached _ => ?_
    exact truth _ reached.tidy
  refine .use settled rfl fun now reached _ => ?_
  cases operator with
  | or =>
    dsimp only
    split
    · exact truth true reached.tidy
    · exact right reached.tidy
  | and =>
    dsimp only
    split
    · exact truth false reached.tidy
    · exact right reached.tidy
  | binary op =>
    refine .bindYielded (operands behind reached.tidy) fun ⟨right, next⟩ now settled => ?_
    refine .use settled rfl fun now reached _ => ?_
    refine .compute (.refl reached.tidy) fun value applied => ?_
    exact .done (.refl reached.tidy) (.of_clean rfl (.inr (Value.clean_apply applied)))

/-- Operands of one level yield the only one of them, or what joins them. -/
theorem joinOperands_yields {operand : Cursor → Eval (Value × Cursor)}
    (operands : YieldsAnywhere strict operand) (operators : List Operator) (count : Nat) :
    ∀ {start engine : Engine} {left : Value} {cursor : Cursor},
      HasYielded strict start (left, cursor) engine → (count = 0 → Reached strict start engine) →
      Yields strict start (joinOperands operators operand count left cursor) engine := by
  -- The induction is on the number of operands that may still follow.
  induction count with
  | zero => exact fun _ reached => .failed (reached rfl)
  | succ count ih =>
    intro start engine left cursor settled _
    unfold joinOperands
    dsimp only
    split
    · exact .settled (settled.keep rfl rfl)
    · refine .bind (joinOperand_runs operands settled _ _) fun result now reached yielded => ?_
      have here := Reached.refl reached.tidy
      exact ih (.inl ⟨here, .of_trusted rfl (yielded result.1 rfl)⟩) fun _ => here

/-- The operands of all levels yield a value. -/
theorem evaluateLevels_yields {operand : Cursor → Eval (Value × Cursor)}
    (operands : YieldsAnywhere strict operand) (levels : List (List Operator)) :
    YieldsAnywhere strict (evaluateLevels operand levels) := by
  -- The induction is on the levels, the loosest one first.
  induction levels with
  | nil => exact operands
  | cons operators tighter ih =>
    intro engine cursor tidy
    refine .bindYielded (ih cursor tidy) fun ⟨first, behind⟩ now settled => ?_
    exact joinOperands_yields ih operators _ settled (by simp)

/-- What a name stands for yields a trusted value or a `quit`. -/
theorem evaluateHandler_yields (lawful : eval.Lawful strict) (tidy : engine.Tidy strict)
    (handler : Handler) (cursor : Cursor) (clean : engine.Exempt strict ∨ handler.Clean) :
    Yields strict engine (evaluateHandler eval handler cursor) engine := by
  cases handler with
  | keyword keyword =>
    refine .note tidy (.embedded _ _ .nil) rfl ?_
    exact runKeyword_yields lawful (Moved.note tidy (.embedded keyword cursor .nil) rfl).tidy _ _
  | «variable» value => exact .done (.refl tidy) (.of_clean rfl clean)
  | native native =>
    refine .bind (readArgs_runs lawful tidy cursor) fun ⟨args, behind⟩ now reached _ => ?_
    exact yields_behind behind
      (callNative_yields lawful reached.tidy _ _ (clean.imp_left reached.exempt))
  | function function =>
    refine .bind (readArgs_runs lawful tidy cursor) fun ⟨args, behind⟩ now reached argsClean => ?_
    refine .look ?_
    refine yields_behind behind (callFunction_yields lawful reached.tidy function argsClean ?_)
    -- A method gets the `this` around it, which is clean if the stack is.
    intro value same
    refine reached.tidy.imp_right fun clean => ?_
    split at same
    · exact clean.valueOf same
    · cases same
  | compiled function =>
    refine .bind (readArgs_runs lawful tidy cursor) fun ⟨args, behind⟩ now reached _ => ?_
    -- A compiled function is never clean, so that storage is of no concern.
    have exempt := (clean.imp_left reached.exempt).resolve_right id
    exact yields_behind behind (callCompiled_yields reached.tidy function _ exempt)
  | classDef definition =>
    refine .bind (readArgs_runs lawful tidy cursor) fun ⟨args, behind⟩ now reached argsClean => ?_
    exact yields_behind behind
      (instantiate_yields lawful reached.tidy (clean.imp_left reached.exempt) argsClean)
  | action action => exact .failed (.refl tidy)

/-- A name yields a trusted value or a `quit`. -/
theorem evaluateName_yields (lawful : eval.Lawful strict) (tidy : engine.Tidy strict)
    (cursor : Cursor) : Yields strict engine (evaluateName eval cursor) engine := by
  refine .look ?_
  dsimp only
  split
  case h_1 value constant =>
    refine .done (.refl tidy) (.of_clean rfl (.inr ?_))
    -- The constants are clean.
    unfold constant? at constant
    split at constant <;> cases constant <;> simp
  case h_2 =>
    split
    case h_1 value found =>
      exact .done (.refl tidy) (.of_clean rfl (tidy.imp_right fun clean => clean.resolve found))
    case h_2 handler _ found =>
      have clean := tidy.imp_right fun clean => clean.resolve found
      refine .bindYielded (evaluateHandler_yields lawful tidy handler _ clean)
        fun ⟨value, next⟩ now settled => ?_
      exact .settled (settled.keep rfl rfl)
    case h_3 => exact .failed (.refl tidy)

/-- The elements of an array literal are used up one by one. -/
theorem evaluateElements_runs (lawful : eval.Lawful strict) (site : Site)
    (parts : List (List Char)) :
    ∀ {engine : Engine}, engine.Tidy strict →
      Runs strict engine (fun elements now => now.Exempt strict ∨ ∀ element ∈ elements, element.Clean)
        (evaluateElements eval site parts) engine := by
  -- The induction is on the parts that are left.
  induction parts with
  | nil => exact fun tidy => .done (.refl tidy) (.inr (by simp))
  | cons part rest ih =>
    intro engine tidy
    refine .bind (evaluateAs_runs lawful tidy .element _ _) fun element now reached used => ?_
    refine .bind (ih reached.tidy) fun elements now reached clean => ?_
    refine .done (.refl reached.tidy) ?_
    refine unless_both ((used.clean rfl).imp_left reached.exempt) clean fun first others => ?_
    simpa [first] using others

/-- The entries of a map literal are used up one by one. -/
theorem evaluateEntries_runs (lawful : eval.Lawful strict) (cursor : Cursor)
    (parts : List (List Char)) :
    ∀ {engine : Engine}, engine.Tidy strict →
      Runs strict engine (fun entries now => now.Exempt strict ∨ ∀ entry ∈ entries, entry.2.Clean)
        (evaluateEntries eval cursor parts) engine := by
  -- The induction is on the parts that are left.
  induction parts with
  | nil => exact fun tidy => .done (.refl tidy) (.inr (by simp))
  | cons part rest ih =>
    intro engine tidy
    unfold evaluateEntries
    split
    · refine .read (.refl tidy) fun name _ => ?_
      refine .bind (evaluateAs_runs lawful tidy .entry _ _) fun value now reached used => ?_
      refine .bind (ih reached.tidy) fun entries now reached clean => ?_
      refine .done (.refl reached.tidy) ?_
      refine unless_both ((used.clean rfl).imp_left reached.exempt) clean fun first others => ?_
      simpa [first] using others
    · exact .failed (.refl tidy)

/-- An operand without signs and steps yields a trusted value or a `quit`. -/
theorem evaluatePrimary_yields (lawful : eval.Lawful strict) (tidy : engine.Tidy strict)
    (cursor : Cursor) : Yields strict engine (evaluatePrimary eval cursor) engine := by
  unfold evaluatePrimary
  dsimp only
  split
  · exact .failed (.refl tidy)
  · refine .read (.refl tidy) fun ⟨text, behind⟩ _ => ?_
    -- A group yields what is in it, literals are clean, and a name has been looked at.
    refine .bindYielded (evaluateAll_yields lawful tidy _) fun value now settled => ?_
    exact .settled (settled.keep rfl rfl)
  · refine .read (.refl tidy) fun ⟨text, behind⟩ _ => ?_
    exact .done (.refl tidy) (.of_clean rfl (.inr (Value.clean_string _)))
  · refine .read (.refl tidy) fun ⟨text, behind⟩ _ => ?_
    refine .bind (evaluateElements_runs lawful _ _ tidy) fun elements now reached clean => ?_
    exact .done (.refl reached.tidy) (.of_clean rfl (clean.imp_right Value.clean_array))
  · refine .read (.refl tidy) fun ⟨text, behind⟩ _ => ?_
    refine .bind (evaluateEntries_runs lawful _ _ tidy) fun entries now reached clean => ?_
    exact .done (.refl reached.tidy) (.of_clean rfl (clean.imp_right Value.clean_map))
  · split
    · refine .read (.refl tidy) fun ⟨number, behind⟩ _ => ?_
      exact .done (.refl tidy) (.of_clean rfl (.inr (Value.clean_number _)))
    · split
      · exact evaluateName_yields lawful tidy _
      · exact .failed (.refl tidy)

/-- An operand with steps behind it yields a trusted value or a `quit`. -/
theorem evaluateSteps_yields (lawful : eval.Lawful strict) (count : Nat) :
    ∀ {start engine : Engine} {operand : Operand}, HasYielded strict start operand engine →
      Yields strict start (evaluateSteps eval count operand) engine := by
  -- The induction is on the number of steps that may still follow.
  induction count with
  | zero =>
    intro start engine operand settled
    refine .use settled rfl fun now reached _ => ?_
    exact .failed (.refl reached.tidy)
  | succ count ih =>
    intro start engine ⟨value, place, cursor⟩ settled
    unfold evaluateSteps
    split
    · refine .readBehind settled rfl fun ⟨text, behind⟩ _ => ?_
      refine .use settled rfl fun now reached receiver => ?_
      refine .bind (evaluateAs_runs lawful reached.tidy .index _ _) fun index now reached _ => ?_
      refine .compute (.refl reached.tidy) fun element read => ?_
      refine ih (.inl ⟨.refl reached.tidy, .of_clean rfl ?_⟩)
      exact receiver.sound.imp reached.exempt fun sound => sound.index read
    · split
      · dsimp only
        split
        · refine .use settled rfl fun now reached receiver => ?_
          refine .bind (readArgs_runs lawful reached.tidy _) fun ⟨args, next⟩ now reached clean => ?_
          refine .bindYielded (callMethod_yields lawful reached.tidy _ place _
            (receiver.sound.imp_left reached.exempt) clean) fun result now settled => ?_
          exact ih (settled.keep rfl rfl)
        · refine .use settled rfl fun now reached receiver => ?_
          refine .bindYielded (getProperty_yields lawful reached.tidy _ _ receiver.sound)
            fun property now settled => ?_
          exact ih (settled.keep rfl rfl)
      · exact .settled (settled.keep rfl rfl)

/-- An operand with signs in front and steps behind yields a trusted value or a `quit`. -/
theorem evaluateOperand_yields (lawful : eval.Lawful strict) :
    YieldsAnywhere strict (evaluateOperand eval) := by
  intro engine cursor tidy
  unfold evaluateOperand
  dsimp only
  refine .bindYielded (evaluatePrimary_yields lawful tidy _) fun operand now settled => ?_
  refine .bindYielded (evaluateSteps_yields lawful _ settled) fun ⟨stepped, next⟩ now settled => ?_
  dsimp only
  split
  case isTrue none =>
    -- Without signs the value is handed on as it is.
    rw [List.isEmpty_iff.mp none, pure_bind]
    exact .settled (settled.keep rfl rfl)
  case isFalse some =>
    refine .use settled rfl fun now reached _ => ?_
    refine .compute (.refl reached.tidy) fun value applied => ?_
    have clean := clean_applySigns applied (by simpa using some)
    exact .done (.refl reached.tidy) (.of_clean rfl (.inr clean))

/-- Phrases of every depth yield trusted values or a `quit`. -/
theorem evaluator_lawful (depth : Nat) : (evaluator depth).Lawful strict := by
  -- The induction is on the depth: every construct proceeds if what is nested in it does.
  induction depth with
  | zero => exact fun _ _ _ tidy => .failed (.refl tidy)
  | succ depth ih =>
    intro phrase cursor engine tidy
    cases phrase with
    | expression => exact evaluateLevels_yields (evaluateOperand_yields ih) _ cursor tidy
    | statement => exact runStatement_yields ih tidy cursor

end ScriptEngine

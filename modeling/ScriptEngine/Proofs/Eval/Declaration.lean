import ScriptEngine.Eval.Declaration
import ScriptEngine.Proofs.Eval.Function

/-! How variables, enumerations, namespaces and compiled functions are declared. -/

namespace ScriptEngine

variable {strict : Bool} {engine : Engine} {eval : Evaluator}

/-- The variables of a list are bound one by one. -/
theorem declareVariables_runs (lawful : eval.Lawful strict) (cursor : Cursor)
    (parts : List (List Char)) :
    ∀ {engine : Engine}, engine.Tidy strict →
      Runs strict engine (fun _ _ => True) (declareVariables eval cursor parts) engine := by
  -- The induction is on the parts of the list that are left.
  induction parts with
  | nil => exact fun tidy => .done (.refl tidy) trivial
  | cons part rest ih =>
    intro engine tidy
    have binds : ∀ {now : Engine} {value : Value} (name : String), now.Tidy strict →
        now.Exempt strict ∨ value.Clean → Runs strict now (fun _ _ => True) (do
          modify (·.defineLocal name (.variable value) cursor.file)
          declareVariables eval cursor rest) now := by
      intro now value name tidy clean
      have bound := defineLocal_moved name cursor.file clean tidy
      exact .change bound (ih bound.tidy)
    unfold declareVariables
    dsimp only
    split
    · exact .failed (.refl tidy)
    · split
      · refine .bind (evaluateAs_runs lawful tidy .initializer _ _) fun value now reached used => ?_
        exact binds _ reached.tidy (used.clean rfl)
      · rw [pure_bind]
        exact binds _ tidy (.inr Value.clean_null)

/-- A `var` statement yields null. -/
theorem runVar_yields (lawful : eval.Lawful strict) (tidy : engine.Tidy strict) (cursor : Cursor) :
    Yields strict engine (runVar eval cursor) engine := by
  refine .bind (declareVariables_runs lawful _ _ tidy) fun _ now reached _ => ?_
  refine .read (.refl reached.tidy) fun next _ => ?_
  exact .done (.refl reached.tidy) (.of_clean rfl (.inr Value.clean_null))

/-- The number of an entry is used up. -/
theorem readEntry_runs (lawful : eval.Lawful strict) (tidy : engine.Tidy strict) (cursor : Cursor)
    (next : Int) (part : List Char) :
    Runs strict engine (fun _ _ => True) (readEntry eval cursor next part) engine := by
  unfold readEntry
  split
  · exact .done (.refl tidy) trivial
  · refine .bind (evaluateAs_runs lawful tidy .enumEntry _ _) fun value now reached _ => ?_
    split
    · exact .done (.refl reached.tidy) trivial
    · exact .failed (.refl reached.tidy)

/-- The entries of an enumeration are read one by one. -/
theorem readEntries_runs (lawful : eval.Lawful strict) (cursor : Cursor)
    (parts : List (List Char)) :
    ∀ {engine : Engine} {next : Int} {entries : OrderedMap Int}, engine.Tidy strict →
      Runs strict engine (fun _ _ => True) (readEntries eval cursor next entries parts) engine := by
  -- The induction is on the parts that are left.
  induction parts with
  | nil => exact fun tidy => .done (.refl tidy) trivial
  | cons part rest ih =>
    intro engine next entries tidy
    refine .bind (readEntry_runs lawful tidy cursor next part) fun result now reached _ => ?_
    dsimp only
    split
    · exact .failed (.refl reached.tidy)
    · exact ih reached.tidy

/-- The declaration of an enumeration yields null. -/
theorem declareEnum_yields (lawful : eval.Lawful strict) (tidy : engine.Tidy strict)
    (cursor : Cursor) : Yields strict engine (declareEnum eval cursor) engine := by
  unfold declareEnum
  dsimp only
  split
  · exact .failed (.refl tidy)
  · refine .read (.refl tidy) fun ⟨body, behind⟩ _ => ?_
    refine .bind (readEntries_runs lawful _ _ tidy) fun entries now reached _ => ?_
    -- The entries are values of the enumeration and bound as one.
    have bound := defineDeclaration_moved cursor.readToken.1
      (.variable (.ofData (.enumeration ⟨cursor.readToken.1, entries⟩))) reached.tidy
      (.inr (Value.clean_enumeration _))
    exact .change bound (.done (.refl bound.tidy) (.of_clean rfl (.inr Value.clean_null)))

/-- A namespace block yields null or the signal that ends it. -/
theorem runNamespace_yields (lawful : eval.Lawful strict) (tidy : engine.Tidy strict)
    (cursor : Cursor) : Yields strict engine (runNamespace eval cursor) engine := by
  unfold runNamespace
  dsimp only
  split
  · exact .failed (.refl tidy)
  · refine .read (.refl tidy) fun ⟨body, behind⟩ _ => ?_
    -- The namespace is there before its statements run, in a frame of their own.
    have adjusts : engine.Adjusts True { engine with
        symbols := engine.symbols.ensureNamespace cursor.readToken.1 } :=
      .symbols fun _ old => old.ensureNamespace _
    have made := Moved.adjust adjusts (.inr trivial) tidy
    refine .change made ?_
    refine .bindYielded (.withFrame made.tidy (fun _ _ _ yielded => yielded)
      fun inside _ tidy => runAll_yields lawful tidy _) fun value now settled => ?_
    exact .settled (settled.signalOrNull rfl rfl)

/-- The declaration of a compiled function yields null. -/
theorem declareCompiled_yields (tidy : engine.Tidy strict) (cursor : Cursor) :
    Yields strict engine (declareCompiled cursor) engine := by
  unfold declareCompiled
  dsimp only
  split
  · exact .failed (.refl tidy)
  · refine .read (.refl tidy) fun ⟨header, headed⟩ _ => ?_
    refine .compute (.refl tidy) fun params _ => ?_
    refine .read (.refl tidy) fun ⟨body, behind⟩ _ => ?_
    refine .look ?_
    split
    case h_1 => exact .failed (.refl tidy)
    case h_2 compiler found =>
      split
      · exact .failed (.refl tidy)
      · -- A clean interpreter has no compiler.
        have exempt : engine.Exempt strict := tidy.resolve_right fun clean => by
          rw [clean.compiler] at found
          cases found
        have bound : ∀ handler, Moved strict engine
            (engine.defineDeclaration cursor.readToken.1 handler) :=
          fun handler => defineDeclaration_moved _ handler tidy (.inl exempt)
        exact .change (bound _)
          (.done (.refl (bound _).tidy) (.of_clean rfl (.inr Value.clean_null)))

/-- The call of a compiled function yields a value. -/
theorem callCompiled_yields (tidy : engine.Tidy strict) (function : CompiledFunction)
    (arguments : List Value) (exempt : engine.Exempt strict) :
    Yields strict engine (callCompiled function arguments) engine := by
  refine .compute (.refl tidy) fun buckets _ => ?_
  exact .hosted (.refl tidy) fun value _ => .of_trusted rfl (.inl exempt)

end ScriptEngine

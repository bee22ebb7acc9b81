import ScriptEngine.Proofs.Engine.Binding
import ScriptEngine.Proofs.Interpreter

/-! Control signals in places that keep values: none is there as long as none was used as what such a
place is given. -/

namespace ScriptEngine

/-- An assignment passes a sound operand on. -/
theorem Action.Sound.assignment (token : String) : (Action.assignment token).Sound := by
  rintro current operand value _ sound ⟨⟩
  exact sound

/-- What an operator makes of its target and an operand is clean. -/
theorem Action.Sound.binary (token : String) (op : BinaryOp) :
    (Action.binary token op.apply).Sound :=
  fun _ _ _ _ _ (made : op.apply _ _ = .ok _) => .clean (Value.clean_apply made)

/-- A number that is moved is a number. -/
theorem Action.Sound.step (token : String) (distance : Float) :
    (Action.unary token (Action.step distance)).Sound := by
  intro current operand value _ _ made
  change Action.step distance current = .ok value at made
  unfold Action.step at made
  split at made
  · cases made
    exact .clean (Value.clean_number _)
  · cases made

/-- The actions of a new interpreter make sound values of sound ones. -/
theorem preludeActions_sound : ∀ action ∈ preludeActions, action.Sound := by
  simp only [preludeActions, List.forall_mem_cons]
  exact ⟨.assignment _, .binary _ _, .binary _ _, .binary _ _, .binary _ _, .binary _ _,
    .step _ _, .step _ _, by simp⟩

/-- A new interpreter is clean. -/
theorem Engine.clean_new (config : Config) (files : FileTree) : (Engine.new config files).Clean := by
  -- The symbols are those of the prelude, of which none holds a value.
  have natives : (preludeNatives.foldl (fun symbols native =>
      symbols.setNative native.name (.native native)) ({} : SymbolTable)).Clean := by
    refine List.foldlRecOn (motive := SymbolTable.Clean) _ _ ?_ fun symbols known native member => ?_
    · exact ⟨.empty, .empty, by simp [OrderedMap.empty], by simp [OrderedMap.empty],
        by simp [OrderedMap.empty]⟩
    · refine known.setNative _ ?_
      simp only [preludeNatives, List.mem_cons, List.not_mem_nil, or_false] at member
      rcases member with rfl | rfl | rfl | rfl | rfl | rfl | rfl | rfl | rfl | rfl | rfl | rfl
      all_goals exact ⟨_, rfl⟩
  have actions : (Engine.new config files).symbols.Clean :=
    List.foldlRecOn (motive := SymbolTable.Clean) _ _ natives fun symbols known action member =>
      known.setAction (preludeActions_sound action member)
  exact ⟨actions, by simp [Engine.new, Heap.Clean], by simp [Engine.new, ScopeStack.Clean], rfl, rfl,
    by simp [Engine.new], by simp [Engine.new]⟩

/-- A new interpreter is neat. -/
theorem Engine.neat_new (config : Config) (files : FileTree) : (Engine.new config files).Neat :=
  { Engine.clean_new config files with results := by simp [Engine.new] }

/-- A new interpreter is steady. -/
theorem Interpreter.steady_new (config : Config) (files : FileTree) :
    (Interpreter.new config files).Steady true :=
  ⟨.inr (Engine.neat_new config files), fun _ => .nil, by simp [Interpreter.new]⟩

/-- The interpreters that scripts lead to from a new one. -/
inductive Reachable : Interpreter → Prop
  | fresh (config : Config) (files : FileTree) : Reachable (.new config files)
  | ran {interpreter : Interpreter} (before : Reachable interpreter) (source file : String)
      (isMain : Bool) : Reachable (interpreter.process source file isMain).2

/-- What scripts lead to is steady. -/
theorem Reachable.steady {interpreter : Interpreter} (reachable : Reachable interpreter) :
    interpreter.Steady true := by
  induction reachable with
  | fresh config files => exact Interpreter.steady_new config files
  | ran _ source file isMain ih => exact (ih.process source file isMain).2

/-- An identifier is no qualified name. -/
theorem not_contains_dot {name : List Char} (identifier : Text.isIdentifier name = true) :
    (String.ofList name).toList.contains '.' = false := by
  have word : ∀ c, Text.isWordChar c = true → c ≠ '.' := by
    rintro _ holds rfl
    exact absurd holds (by decide)
  rw [String.toList_ofList]
  -- Every character of an identifier is one of words, and a point is none.
  cases name with
  | nil => rfl
  | cons first rest =>
    simp only [Text.isIdentifier, Bool.and_eq_true, List.all_eq_true] at identifier
    have start : first ≠ '.' := by
      rintro rfl
      exact absurd identifier.1 (by decide)
    simp only [List.contains_eq_mem, List.mem_cons, decide_eq_false_iff_not, not_or]
    exact ⟨start.symm, fun member => word '.' (identifier.2 '.' member) rfl⟩

variable {allows : Engine → Engine → Prop}

/-- Whatever the first value of a variable is, also a signal, the variable has it. -/
theorem declareVariables_binds {eval : Evaluator} {cursor : Cursor} {part name text : List Char}
    {start middle : Engine} {value : Value} (split : splitDefault part = (name, some text))
    (identifier : Text.isIdentifier name = true)
    (first : (evaluateText eval cursor.site text start).MayEnd allows (.ok value) middle) :
    ∃ final, (declareVariables eval cursor [part] start).MayEnd allows (.ok ()) final ∧
      final.valueOf? (String.ofList name) cursor.file = some value := by
  have used : ∃ noted, (Eval.use .initializer value middle) = .finished (.ok value) noted := by
    unfold Eval.use
    split
    · exact ⟨_, rfl⟩
    · exact ⟨_, rfl⟩
  obtain ⟨noted, used⟩ := used
  refine ⟨noted.defineLocal (String.ofList name) (.variable value) cursor.file, ?_, ?_⟩
  · -- One part with a name and a text is one evaluation and one binding.
    have declared : declareVariables eval cursor [part] = (do
        let taken ← Eval.use .initializer (← evaluateText eval cursor.site text)
        modify (·.defineLocal (String.ofList name) (.variable taken) cursor.file)) := by
      unfold declareVariables
      rw [split]
      simp only [identifier, evaluateAs, bind_assoc]
      rfl
    have behind : ((do
        let taken ← Eval.use .initializer value
        modify (·.defineLocal (String.ofList name) (.variable taken) cursor.file) : Eval Unit)
          middle).MayEnd allows (.ok ())
        (noted.defineLocal (String.ofList name) (.variable value) cursor.file) := by
      change ((Eval.use .initializer value middle).andThen _).MayEnd allows _ _
      rw [used]
      exact .finished
    rw [declared]
    exact first.andThen behind
  · unfold Engine.valueOf?
    rw [Engine.resolve_defineLocal _ _ _ (not_contains_dot identifier)]
    rfl

/-- An interpreter that scripts lead to holds no control signal anywhere, nor do its threads, if none
was used as the first value of a variable or as anything else that is stored unchecked. A signal that
is the first value of a variable is stored. -/
theorem signals_stored_only_when_used {interpreter : Interpreter}
    (reachable : Reachable interpreter) :
    ((∀ use ∈ interpreter.engine.signalUses, use.stores = false) →
      interpreter.engine.Clean ∧ ∀ thread ∈ interpreter.threads, thread.stack.Clean) ∧
    ∀ (allows : Engine → Engine → Prop) depth cursor part name text value middle,
      splitDefault part = (name, some text) → Text.isIdentifier name = true →
      (evaluateText (evaluator depth) cursor.site text interpreter.engine).MayEnd allows
        (.ok value) middle →
      ∃ final, (declareVariables (evaluator depth) cursor [part] interpreter.engine).MayEnd allows
          (.ok ()) final ∧ final.valueOf? (String.ofList name) cursor.file = some value ∧
        (value.isSignal = true → ¬ final.Clean) := by
  constructor
  · intro unused
    have steady := reachable.steady
    -- Without such a use, nothing exempts the interpreter from being clean.
    have strict : ¬ interpreter.engine.Exempt true := by
      rintro (lax | ⟨use, used, stores⟩)
      · cases lax
      · rw [unused use used] at stores
        cases stores
    refine ⟨(steady.tidy.resolve_left strict).toClean, fun thread member => ?_⟩
    obtain ⟨start, steady⟩ := steady.threads rfl thread member
    exact steady.stack.resolve_left strict
  · intro allows depth cursor part name text value middle split identifier first
    obtain ⟨final, declared, bound⟩ := declareVariables_binds split identifier first
    refine ⟨final, declared, bound, fun signal clean => ?_⟩
    rw [(clean.valueOf bound).plain] at signal
    cases signal

/-- A script that uses signals where nothing is stored. -/
def harmlessSignals : String :=
  "function f() { return break; } x = [1, 2]; if (break) { x = [x]; } f();"

/-- The script leaves a new interpreter clean. -/
theorem signals_stored_only_when_used_harmless :
    (∀ use ∈ ((Interpreter.new {} {}).process harmlessSignals "main" true).2.engine.signalUses,
      use.stores = false) ∧
    ((Interpreter.new {} {}).process harmlessSignals "main" true).2.engine.Clean := by
  have unused : ∀ use ∈ ((Interpreter.new {} {}).process harmlessSignals "main"
      true).2.engine.signalUses, use.stores = false := by decide +kernel
  have reachable := Reachable.ran (.fresh {} {}) harmlessSignals "main" true
  exact ⟨unused, ((signals_stored_only_when_used reachable).1 unused).1⟩

end ScriptEngine

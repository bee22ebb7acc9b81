import ScriptEngine.Proofs.Engine.Reached

/-! The changes of an interpreter that leave its frames, its calls and its logs alone. -/

namespace ScriptEngine

namespace Engine

variable {engine : Engine}

namespace Adjusts

/-- A change is weaker if more is given. -/
theorem given {given more : Prop} {changed : Engine} (adjusts : engine.Adjusts given changed)
    (known : more → given) : engine.Adjusts more changed :=
  { adjusts with neat := fun holds => adjusts.neat (known holds) }

/-- A change of the shared names. -/
theorem symbols {given : Prop} {symbols : SymbolTable}
    (clean : given → engine.symbols.Clean → symbols.Clean) :
    engine.Adjusts given { engine with symbols } :=
  ⟨.refl _, rfl, rfl, rfl, fun holds old => { old with symbols := clean holds old.symbols }⟩

/-- A change of the objects. -/
theorem heap {given : Prop} {heap : Heap} (clean : given → engine.heap.Clean → heap.Clean) :
    engine.Adjusts given { engine with heap } :=
  ⟨.refl _, rfl, rfl, rfl, fun holds old => { old with heap := clean holds old.heap }⟩

/-- A change of the active frame. -/
theorem active {given : Prop} {change : Frame → Frame}
    (keeps : ∀ frame, (change frame).tag = frame.tag)
    (clean : given → ∀ frame, CleanNames frame.names → CleanNames (change frame).names) :
    engine.Adjusts given { engine with stack := engine.stack.modifyActive change } :=
  ⟨.modifyActive _ keeps, rfl, rfl, rfl,
    fun holds old => { old with stack := old.stack.modifyActive (clean holds) }⟩

/-- A binding in the active frame. -/
theorem define (name : String) (handler : Handler) :
    engine.Adjusts handler.Clean { engine with stack := engine.stack.define name handler } :=
  active (fun _ => rfl) fun new _ old => old.insert name new

end Adjusts

/-- A binding in the innermost scope. -/
theorem defineIn_adjusts {outermost : SymbolTable → SymbolTable} {name : String} {handler : Handler}
    (clean : handler.Clean → engine.symbols.Clean → (outermost engine.symbols).Clean) :
    engine.Adjusts handler.Clean (engine.defineIn outermost name handler) := by
  unfold defineIn
  split
  · exact .symbols fun new old => old.setNamespaced _ _ new
  · exact .define name handler
  · exact .symbols clean

/-- A local binding. -/
theorem defineLocal_adjusts (name : String) (handler : Handler) (file : String) :
    engine.Adjusts handler.Clean (engine.defineLocal name handler file) :=
  defineIn_adjusts fun new old => old.setFileLocal _ _ new

/-- The binding of a declaration. -/
theorem defineDeclaration_adjusts (name : String) (handler : Handler) :
    engine.Adjusts handler.Clean (engine.defineDeclaration name handler) :=
  defineIn_adjusts fun new old => old.setGlobal _ new

/-- A binding at a target. -/
theorem bindAt_adjusts (name file : String) (handler : Handler) (target : Target) :
    engine.Adjusts handler.Clean (engine.bindAt name file handler target) := by
  cases target with
  | frame => exact .define name handler
  | namespaced scope member => exact .symbols fun new old => old.setNamespaced _ _ new
  | fileLocal => exact .symbols fun new old => old.setFileLocal _ _ new
  | global => exact .symbols fun new old => old.setGlobal _ new

/-- An assignment. -/
theorem assign_adjusts (name : String) (handler : Handler) (file : String) :
    engine.Adjusts handler.Clean (engine.assign name handler file) :=
  bindAt_adjusts name file handler _

/-- The change of a variable, which is clean if the change keeps values clean. -/
theorem updateVariable_adjusts (name file : String) (change : Value → Value × Result Unit) :
    engine.Adjusts (∀ before : Value, before.Clean → (change before).1.Clean)
      (engine.updateVariable name file change).1 := by
  -- The new value is clean, whatever the variable held before.
  have bound : ∀ {before : Value}, (engine.Clean → before.Clean) →
      engine.Adjusts (∀ before : Value, before.Clean → (change before).1.Clean)
        (engine.bindAt name file (.variable (change before).1) (engine.target name file)) := by
    intro before clean
    have adjusts : engine.Adjusts (change before).1.Clean
        (engine.bindAt name file (.variable (change before).1) (engine.target name file)) :=
      bindAt_adjusts name file (.variable (change before).1) _
    exact { adjusts with
      neat := fun keeps old => adjusts.neat (keeps before (clean old.toClean)) old }
  unfold updateVariable
  dsimp only
  split
  case h_1 found => exact bound fun clean => clean.at_clean found
  case h_2 => exact ⟨.refl _, rfl, rfl, rfl, fun _ clean => clean⟩
  case h_3 =>
    split
    case h_1 changed made =>
      have fresh := bound fun _ => Value.clean_null
      rwa [made] at fresh
    case h_2 => exact ⟨.refl _, rfl, rfl, rfl, fun _ clean => clean⟩

/-- A piece of output. -/
theorem emit_adjusts (text : String) (isDiagnostic : Bool) :
    engine.Adjusts True (engine.emit text isDiagnostic) :=
  ⟨.refl _, rfl, rfl, rfl, fun _ clean => { clean with }⟩

/-- The launch of a worker. -/
theorem launch_adjusts (cursor : Cursor) (detached : Bool) :
    engine.Adjusts True (engine.launch cursor detached).1 := by
  refine ⟨.refl _, rfl, rfl, rfl, fun _ neat => ?_⟩
  -- The worker has no result yet, and it starts with a copy of clean names.
  have workers := neat.withWorkers (⟨engine.lastWorker + 1, detached, false, none⟩ :: engine.workers)
    fun worker member value result => by
      rcases List.mem_cons.mp member with rfl | old
      · cases result
      · exact neat.trusts old result
  refine { workers with launched := fun launch member => ?_ }
  rcases List.mem_append.mp member with old | new
  · exact neat.launched launch old
  · rw [List.mem_singleton.mp new]
    exact neat.stack.fork

/-- The claim to the result of a worker. -/
theorem await_adjusts (id : Nat) : engine.Adjusts True (engine.await id) := by
  refine ⟨.refl _, rfl, rfl, rfl, fun _ neat => neat.withWorkers _ ?_⟩
  intro worker member value result
  obtain ⟨before, there, rfl⟩ := List.mem_map.mp member
  split at result
  · exact neat.trusts there result
  · exact neat.trusts there result

/-- The removal of a worker. -/
theorem dropWorker_adjusts (id : Nat) : engine.Adjusts True (engine.dropWorker id) :=
  ⟨.refl _, rfl, rfl, rfl, fun _ neat => neat.withWorkers _ fun _ member _ result =>
    neat.trusts (List.mem_filter.mp member).1 result⟩

/-- The record that a worker is done. -/
theorem finishWorker_adjusts (id : Nat) (result : Except Stop Value) :
    engine.Adjusts (∀ value, result = .ok value → engine.Trusts value)
      (engine.finishWorker id result) := by
  have dropped : ∀ given : Prop, engine.Adjusts given (engine.dropWorker id) :=
    fun _ => (dropWorker_adjusts id).given fun _ => trivial
  unfold finishWorker
  dsimp only
  split
  · -- A detached worker is forgotten, and a failure of it is reported.
    split
    · refine ⟨.refl _, rfl, rfl, rfl, fun given neat => ?_⟩
      exact (emit_adjusts _ true).neat trivial ((dropped _).neat given neat)
    · exact dropped _
  · -- The result is recorded with the worker, and all others have theirs as before.
    refine ⟨.refl _, rfl, rfl, rfl, fun trusts neat => neat.withWorkers _ ?_⟩
    intro worker member value ended
    obtain ⟨before, there, rfl⟩ := List.mem_map.mp member
    split at ended
    · cases ended
      exact trusts value rfl
    · exact neat.trusts there ended

end Engine

end ScriptEngine

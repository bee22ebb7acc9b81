import ScriptEngine.Eval.Evaluator
import ScriptEngine.Proofs.Engine.Binding
import ScriptEngine.Proofs.Step
import ScriptEngine.Proofs.Value.Path

/-! Writing to a place of indices below a variable: it happens as a whole or not at all, it is read
back, and it leaves the elements beside the place alone. -/

namespace ScriptEngine

variable {eval : Evaluator} {site : Site} {engine : Engine} {name file : String}
  {indices : List Value} {value : Value}

/-- The place of indices below a variable. -/
def Place.indexed (name : String) (indices : List Value) : Place := ⟨name, indices.map .index⟩

/-- A path of indices is read step by step. -/
theorem loadSegments_index (eval : Evaluator) (site : Site) (value : Value) (indices : List Value) :
    loadSegments eval site value (indices.map .index) = Eval.ofResult (value.indexAll indices) := by
  induction indices generalizing value with
  | nil => rfl
  | cons index rest ih =>
    rw [List.map_cons, loadSegments, Value.indexAll]
    cases value.index index with
    | error failure => rfl
    | ok element => exact ih element

/-- What is read at a place of indices is what the path leads to below the variable. -/
theorem load_indexed {root : Value} (bound : engine.valueOf? name site.file = some root) :
    load eval site (.indexed name indices) engine =
      .finished ((root.indexAll indices).mapError .failed) engine := by
  unfold load
  rw [Eval.get_bind]
  dsimp only [Place.indexed]
  rw [bound]
  dsimp only
  rw [loadSegments_index]
  cases root.indexAll indices <;> rfl

/-- A place of indices has a value where the path leads to one below the variable. -/
theorem load_indexed_ok {root found : Value} (bound : engine.valueOf? name site.file = some root) :
    load eval site (.indexed name indices) engine = .finished (.ok found) engine ↔
      root.indexAll indices = .ok found := by
  rw [load_indexed bound]
  cases root.indexAll indices <;> simp [Except.mapError]

/-- A place of indices is written as one. -/
theorem indices_index (indices : List Value) :
    Segment.indices? (indices.map .index) = some indices := by
  induction indices with
  | nil => rfl
  | cons index rest ih =>
    unfold Segment.indices? at ih ⊢
    rw [List.map_cons, List.mapM_cons, ih]
    rfl

namespace Engine

/-- The value that a write below a name starts from: that of the binding which an assignment would
change, and null if there is none. -/
def written (engine : Engine) (name file : String) : Value :=
  ((engine.at? name file (engine.target name file)).bind Handler.value?).getD .null

/-- A write at a path changes its variable as a whole, or nothing at all. -/
theorem updateVariable_writeIndexed (indices : List Value) (value : Value)
    (isVariable : ∀ handler, engine.at? name file (engine.target name file) = some handler →
      ∃ root, handler = .variable root) :
    (∃ failure, (engine.written name file).checkIndexed indices = .error failure ∧
      engine.updateVariable name file (·.writeIndexed value indices) = (engine, .error failure)) ∨
    (((engine.written name file).setIndexed value indices).2 = .ok () ∧
      engine.updateVariable name file (·.writeIndexed value indices) =
        (engine.bindAt name file (.variable ((engine.written name file).setIndexed value indices).1)
          (engine.target name file), .ok ())) := by
  unfold updateVariable written
  dsimp only
  -- The write starts from the binding, or from null where there is none.
  cases bound : engine.at? name file (engine.target name file) with
  | some handler =>
    obtain ⟨root, rfl⟩ := isVariable handler bound
    rcases root.writeIndexed_cases value indices with
      ⟨failure, checked, refused⟩ | ⟨succeeds, changed⟩
    · exact .inl ⟨failure, checked, by simp only [refused, bindAt_bound bound]⟩
    · exact .inr ⟨succeeds, by simp only [changed]; rfl⟩
  | none =>
    rcases Value.null.writeIndexed_cases value indices with
      ⟨failure, checked, refused⟩ | ⟨succeeds, changed⟩
    · exact .inl ⟨failure, checked, by simp only [refused]⟩
    · exact .inr ⟨succeeds, by simp only [changed]; rfl⟩

end Engine

/-- A place below a variable has steps. -/
theorem nonempty_indexed (below : indices ≠ []) :
    (Place.indexed name indices).segments.isEmpty = false := by
  cases indices with
  | nil => exact absurd rfl below
  | cons => rfl

/-- What a write at a place of indices does if the name stands for a variable or for nothing. -/
theorem store_indexed (below : indices ≠ []) (plain : value.isSignal = false)
    (isVariable : ∀ handler, engine.resolve? name site.file = some handler →
      ∃ root, handler = .variable root) :
    store eval site (.indexed name indices) value engine =
      .finished
        ((engine.updateVariable name site.file (·.writeIndexed value indices)).2.mapError .failed)
        (engine.updateVariable name site.file (·.writeIndexed value indices)).1 := by
  -- Whatever the name stands for, the write goes to the binding that an assignment would change.
  have stored : ∀ root, storeBelow eval site (.indexed name indices) value root engine =
      .finished
        ((engine.updateVariable name site.file (·.writeIndexed value indices)).2.mapError .failed)
        (engine.updateVariable name site.file (·.writeIndexed value indices)).1 := by
    intro root
    unfold storeBelow
    rw [show Segment.indices? (Place.indexed name indices).segments = some indices from
      indices_index indices]
    show (Eval.ofResult (engine.updateVariable name site.file (·.writeIndexed value indices)).2)
      (engine.updateVariable name site.file (·.writeIndexed value indices)).1 = _
    cases (engine.updateVariable name site.file (·.writeIndexed value indices)).2 <;> rfl
  unfold store
  simp only [plain, nonempty_indexed below, Bool.false_eq_true, if_false]
  rw [Eval.get_bind]
  dsimp only [Place.indexed]
  cases found : engine.resolve? name site.file with
  | none => exact stored .null
  | some handler =>
    obtain ⟨root, rfl⟩ := isVariable handler found
    exact stored root

/-- Nothing is written below what is no variable. -/
theorem store_indexed_other (below : indices ≠ []) (plain : value.isSignal = false)
    {handler : Handler} (found : engine.resolve? name site.file = some handler)
    (other : ∀ root, handler ≠ .variable root) :
    ∃ failure, store eval site (.indexed name indices) value engine =
      .finished (.error (.failed failure)) engine := by
  refine ⟨(.typeMismatch .variable handler.capability.describe : Cause), ?_⟩
  unfold store
  simp only [plain, nonempty_indexed below, Bool.false_eq_true, if_false]
  rw [Eval.get_bind]
  dsimp only [Place.indexed]
  rw [found]
  -- Only a variable would be written below; every other kind is refused alike.
  cases handler
  case «variable» root => exact absurd rfl (other root)
  all_goals rfl

/-- A name that stands for a variable or for nothing is bound to nothing else where an assignment
goes. -/
theorem at_isVariable (isVariable : ∀ handler, engine.resolve? name file = some handler →
      ∃ root, handler = .variable root) :
    ∀ handler, engine.at? name file (engine.target name file) = some handler →
      ∃ root, handler = .variable root := by
  intro handler bound
  refine isVariable handler ?_
  rw [engine.resolve_eq, bound]
  rfl

/-- What a write below a name starts from is what the name stands for, where an assignment goes to its
binding. -/
theorem valueOf_written (bound : (engine.at? name file (engine.target name file)).isSome)
    (isVariable : ∀ handler, engine.resolve? name file = some handler →
      ∃ root, handler = .variable root) :
    engine.valueOf? name file = some (engine.written name file) := by
  obtain ⟨handler, bound⟩ := Option.isSome_iff_exists.mp bound
  obtain ⟨root, rfl⟩ := at_isVariable isVariable handler bound
  simp [Engine.valueOf?, Engine.resolve_eq, Engine.written, bound, Handler.value?]

/-- What a write below a name starts from is kept. -/
theorem kept_written (kept : ∀ root, engine.valueOf? name file = some root → root.Kept)
    (isVariable : ∀ handler, engine.resolve? name file = some handler →
      ∃ root, handler = .variable root) : (engine.written name file).Kept := by
  cases bound : engine.at? name file (engine.target name file) with
  -- Below nothing the write starts from null, which has no elements.
  | none =>
    rw [Engine.written, bound]
    exact .leaf rfl
  | some handler => exact kept _ (valueOf_written (by rw [bound]; rfl) isVariable)

/-- A write at a place of indices below a name fails and changes nothing, as its path is refused or the
name stands for no variable, or it is read back there. If the name was bound where assignments go, each
path that leads to another element reads as before. The check of a path fails just where the write
would, and for the same reason. -/
theorem indexed_write_reads_back (eval : Evaluator) (site : Site) (engine : Engine) (name : String)
    {indices : List Value} (below : indices ≠ []) {value : Value} (plain : value.isSignal = false)
    (kept : ∀ root, engine.valueOf? name site.file = some root → root.Kept) :
    (∀ root content : Value, (root.setIndexed content indices).2 = root.checkIndexed indices) ∧
    ((∃ failure, store eval site (.indexed name indices) value engine =
          .finished (.error (.failed failure)) engine ∧
        ((engine.written name site.file).checkIndexed indices = .error failure ∨
          ∃ handler, engine.resolve? name site.file = some handler ∧ handler.value? = none)) ∨
      ∃ final, store eval site (.indexed name indices) value engine = .finished (.ok ()) final ∧
        load eval site (.indexed name indices) final = .finished (.ok value) final ∧
        ((engine.at? name site.file (engine.target name site.file)).isSome →
          ∀ path found, Value.Diverge indices path →
            load eval site (.indexed name path) engine = .finished (.ok found) engine →
            load eval site (.indexed name path) final = .finished (.ok found) final)) := by
  refine ⟨fun root content => root.setIndexed_outcome content indices, ?_⟩
  by_cases isVariable : ∀ handler, engine.resolve? name site.file = some handler →
      ∃ root, handler = .variable root
  · have stored : store eval site (.indexed name indices) value engine = _ :=
      store_indexed below plain isVariable
    rcases Engine.updateVariable_writeIndexed indices value (at_isVariable isVariable) with
      ⟨failure, checked, refused⟩ | ⟨succeeds, changed⟩
    · rw [refused] at stored
      exact .inl ⟨failure, stored, .inl checked⟩
    · rw [changed] at stored
      refine .inr ⟨_, stored, ?_⟩
      -- The name stands for the changed value, wherever the write has put it.
      have now : (engine.bindAt name site.file
          (.variable ((engine.written name site.file).setIndexed value indices).1)
          (engine.target name site.file)).valueOf? name site.file =
            some ((engine.written name site.file).setIndexed value indices).1 := by
        rw [Engine.valueOf?, Engine.resolve_bindAt]
        rfl
      -- The path itself reads the new value, and a path that parts from it what it read before.
      have rootKept := kept_written kept isVariable
      refine ⟨(load_indexed_ok now).mpr (Value.indexAll_setIndexed rootKept succeeds), ?_⟩
      intro bound path found diverge before
      have read := (load_indexed_ok (valueOf_written bound isVariable)).mp before
      exact (load_indexed_ok now).mpr (diverge.indexAll_setIndexed rootKept succeeds read)
  · -- The name stands for something that is no variable.
    obtain ⟨handler, found, other⟩ : ∃ handler, engine.resolve? name site.file = some handler ∧
        ∀ root, handler ≠ .variable root := by
      by_contra none
      refine isVariable fun handler found => ?_
      by_contra other
      exact none ⟨handler, found, fun root same => other ⟨root, same⟩⟩
    obtain ⟨failure, refused⟩ : ∃ failure, store eval site (.indexed name indices) value engine = _ :=
      store_indexed_other below plain found other
    refine .inl ⟨failure, refused, .inr ⟨handler, found, ?_⟩⟩
    cases handler
    case «variable» root => exact absurd rfl (other root)
    all_goals rfl

/-- An engine with a list in a global variable whose last element is a map. -/
def nestedGlobal : Engine :=
  ({} : Engine).register "m" (.variable (.array [.string "first", .map [("a", .string "one")]])) false

/-- The list and the map in it are in step. -/
theorem nestedGlobal_kept (root : Value) (found : nestedGlobal.valueOf? "m" "main" = some root) :
    root.Kept := by
  obtain rfl : .array [.string "first", .map [("a", .string "one")]] = root :=
    Option.some.inj found
  -- The map has a single entry, which its index leads to.
  have map : (Value.map [("a", .string "one")]).Kept := by
    have inStep := ((Collection.Origin.holds .map).insertKey "a" (Value.string "one")).inStep
    refine .node rfl inStep fun item member => ?_
    rw [show item = .string "one" from List.mem_singleton.mp member]
    exact .leaf rfl
  refine .node rfl (Collection.Origin.holds (.array _)).inStep fun item member => ?_
  rcases List.mem_cons.mp member with rfl | member
  · exact .leaf rfl
  · rw [List.mem_singleton.mp member]
    exact map

/-- A write into the map makes a new key there and leaves the other element of the list alone. -/
theorem indexed_write_reads_back_nested :
    [Value.ofNat 1, .string "b"] ≠ [] ∧ (Value.string "two").isSignal = false ∧
    (∀ root, nestedGlobal.valueOf? "m" "main" = some root → root.Kept) ∧
    ∃ final, store (evaluator 0) ⟨"main", 1⟩ (.indexed "m" [.ofNat 1, .string "b"]) (.string "two")
        nestedGlobal = .finished (.ok ()) final ∧
      load (evaluator 0) ⟨"main", 1⟩ (.indexed "m" [.ofNat 1, .string "b"]) final =
        .finished (.ok (.string "two")) final ∧
      load (evaluator 0) ⟨"main", 1⟩ (.indexed "m" [.ofNat 0]) final =
        .finished (.ok (.string "first")) final := by
  have below : [Value.ofNat 1, .string "b"] ≠ [] := by simp
  have plain : (Value.string "two").isSignal = false := rfl
  refine ⟨below, plain, nestedGlobal_kept, ?_⟩
  have checked : (Value.array [.string "first", .map [("a", .string "one")]]).checkIndexed
      [.ofNat 1, .string "b"] = .ok () := by decide +kernel
  have first : (Value.ofNat 0).selector = .ok (.position 0) := by decide +kernel
  have second : (Value.ofNat 1).selector = .ok (.position 1) := by decide +kernel
  -- The theorem leaves three ways, of which two are ruled out.
  rcases (indexed_write_reads_back (evaluator 0) ⟨"main", 1⟩ nestedGlobal "m" below plain
    nestedGlobal_kept).2 with
      ⟨failure, -, refused | ⟨handler, found, other⟩⟩ | ⟨final, stored, back, others⟩
  · rw [show nestedGlobal.written "m" "main" =
      .array [.string "first", .map [("a", .string "one")]] from rfl, checked] at refused
    cases refused
  · cases found
    cases other
  · refine ⟨final, stored, back, others rfl _ _ (.here second first (.positions (by decide))) ?_⟩
    rw [load_indexed_ok rfl, Value.indexAll, Value.index_collection rfl, first]
    rfl

/-- A native with one element. -/
def nativeMap : Engine :=
  ({} : Engine).register "x" (.variable (.map [("a", .string "one")])) true

/-- A write below a native starts a new variable from nothing, and the elements that could be read
before are gone. -/
theorem native_write_forgets_elements : ∃ final,
    load (evaluator 0) ⟨"main", 1⟩ (.indexed "x" [.string "a"]) nativeMap =
      .finished (.ok (.string "one")) nativeMap ∧
    store (evaluator 0) ⟨"main", 1⟩ (.indexed "x" [.string "b"]) (.string "two") nativeMap =
      .finished (.ok ()) final ∧
    load (evaluator 0) ⟨"main", 1⟩ (.indexed "x" [.string "a"]) final =
      .finished (.ok .null) final :=
  ⟨_, rfl, rfl, rfl⟩

end ScriptEngine

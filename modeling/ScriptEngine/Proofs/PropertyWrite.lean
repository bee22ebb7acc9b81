import Mathlib.Logic.Relation
import ScriptEngine.Proofs.Grammar.Settling
import ScriptEngine.Proofs.IndexedWrite
import ScriptEngine.Proofs.Value.PropertyPath

/-! Writing to a place of indices and properties below a variable. What is written is read back if the
path is open: an ad-hoc field that hides a key of its map and a path that comes through one field of an
instance twice are the ways in which it is not. -/

namespace ScriptEngine

variable {eval : Evaluator} {site : Site} {base engine : Engine} {value content : Value}
  {name file : String} {segments rest : List Segment}

/-- All properties below a name, and those of all instances, are stored ones. -/
structure Engine.Stored (engine : Engine) (name file : String) : Prop where
  heap : engine.heap.Stored
  root : ∀ root, engine.valueOf? name file = some root → root.Stored engine.heap.instances.size

/-- Two interpreters differ at most in what instances hold and in what is noted. -/
def Engine.Wrote (engine : Engine) (heap : Heap) (after : Engine) : Prop :=
  ∃ (events : List Event) (signalUses : List Use) (callLog : List CallEvent),
    after = { engine with heap, events, signalUses, callLog }

/-- What is written below a name starts from its value, or from null. -/
def Engine.root (engine : Engine) (name file : String) : Value := (engine.valueOf? name file).getD .null

namespace Engine.Wrote

variable {held other : Heap} {middle after : Engine}

/-- What instances hold is what was written. -/
theorem heap (wrote : engine.Wrote held after) : after.heap = held := by
  obtain ⟨_, _, _, rfl⟩ := wrote
  rfl

/-- Of two writes the last one counts. -/
theorem trans (first : engine.Wrote held middle) (second : middle.Wrote other after) :
    engine.Wrote other after := by
  obtain ⟨_, _, _, rfl⟩ := first
  obtain ⟨_, _, _, rfl⟩ := second
  exact ⟨_, _, _, rfl⟩

/-- What a name stands for is neither in an instance nor noted. -/
theorem valueOf? (wrote : engine.Wrote held after) (name file : String) :
    after.valueOf? name file = engine.valueOf? name file := by
  obtain ⟨_, _, _, rfl⟩ := wrote
  rfl

end Engine.Wrote

/-! Properties of stored values. -/

/-- A stored value is no object of the host. -/
theorem Value.Stored.foreign? {instances : Nat} (stored : value.Stored instances) :
    value.foreign? = none := by
  unfold Value.foreign?
  rcases stored.shape with ⟨id, _, _, _, typeTag, data⟩ | ⟨_, noObject⟩
  · rw [data]
  · split
    case h_1 object => exact absurd object (noObject _)
    case h_2 => rfl

/-- A property of a stored value is read without running anything. -/
theorem settles_getProperty {instances : Nat} (eval : Evaluator) (site : Site) (base : Engine)
    (stored : value.Stored instances) (name : String) :
    Settles base (getProperty eval site value name)
      (match base.heap.property? value name with
        | some found => .ok found
        | none => fail (.unknownSymbol (value.typeName ++ "." ++ name))) := by
  unfold getProperty Heap.property?
  rw [(stored.plain name).1]
  -- An ad-hoc field is read at once, and else the heap is looked at.
  cases adHoc : value.field? name with
  | some found => exact .pure base found
  | none =>
    refine .get_bind fun engine alike => ?_
    obtain ⟨events, signalUses, rfl⟩ := alike
    rw [stored.foreign?]
    exact .ofResult base _

/-- A property of a stored value is written without running anything. -/
theorem setProperty_stored {instances : Nat} (stored : value.Stored instances) :
    setProperty eval site value name content engine =
      .finished (.ok (value.putProperty name content))
        { engine with heap := engine.heap.putProperty value name content } := by
  unfold setProperty Value.putProperty Heap.putProperty Value.instanceId?
  rw [(stored.plain name).2]
  dsimp only
  rw [Eval.get_bind]
  -- An instance is written on the heap, and everything else in the value.
  rcases stored.shape with ⟨id, _, _, _, typeTag, data⟩ | ⟨_, noObject⟩
  · rw [data]
    rfl
  · cases data : value.data with
    | object handle => exact absurd data (noObject handle)
    | collection collection =>
      dsimp only
      split <;> rfl
    | _ => rfl

/-! Paths below stored values. -/

/-- What is at a path below a stored value is loaded. -/
theorem settles_loadSegments (eval : Evaluator) (site : Site) (heapStored : base.heap.Stored)
    (stored : value.Stored base.heap.instances.size)
    (found : base.heap.at? value segments = some content) :
    Settles base (loadSegments eval site value segments) (.ok content) := by
  -- The induction is on the path; what is loaded at each step is stored again.
  induction segments generalizing value with
  | nil =>
    cases found
    exact .pure base _
  | cons segment rest ih =>
    cases segment with
    | index index =>
      unfold Heap.at? at found
      split at found
      case h_2 => cases found
      case h_1 collection chosen data selects =>
        unfold loadSegments
        rw [Value.index_collection data, selects]
        exact (Settles.ofResult base (.ok (chosen.of collection))).bind_ok
          (ih ((stored.elements (Value.data_of_asCollection? data)).of chosen) found)
    | property name =>
      unfold Heap.at? at found
      split at found
      case h_2 => cases found
      case h_1 inner here =>
        have read := settles_getProperty eval site base stored name
        rw [here] at read
        exact read.bind_ok ((Settles.use base .current inner).bind_ok
          (ih (heapStored.property stored here) found))

/-- A write through an index goes on with the element, which is put back in its place. -/
theorem setSegments_index (value content index : Value) (rest : List Segment) :
    setSegments eval site value content (.index index :: rest) =
      (do
        let (collection, chosen) ← Eval.ofResult (value.reach index)
        let changed ← setSegments eval site (chosen.of collection) content rest
        let written ← Eval.ofResult (chosen.put collection changed)
        return (value.indexable index).withData (.collection written)) := by
  rw [setSegments, Value.reach]
  cases value.indexed index with
  | error failure => rfl
  | ok collection =>
    cases index.key? with
    | some key => rfl
    | none =>
      simp only [Eval.ofResult, pure_bind]
      cases Value.writablePosition collection index <;> rfl

/-- A write through a property goes on inside it. -/
theorem setSegments_property {instances : Nat} (eval : Evaluator) (site : Site) (content : Value)
    (stored : value.Stored instances) (name : String) (segment : Segment) (rest : List Segment) :
    ∃ middle, engine.Wrote engine.heap middle ∧
      setSegments eval site value content (.property name :: segment :: rest) engine = (do
        let changed ← setSegments eval site (engine.heap.inside value name) content (segment :: rest)
        setProperty eval site value name changed : Eval Value) middle := by
  obtain ⟨noted, ⟨events, signalUses, rfl⟩, ran⟩ :=
    settles_getProperty eval site engine stored name engine (.refl engine)
  rw [setSegments]
  swap
  · nofun
  unfold Heap.inside
  -- An unknown property starts a new value, and the failure is dropped.
  cases read : engine.heap.property? value name with
  | none =>
    rw [read] at ran
    have attempted : Eval.attempt (getProperty eval site value name) engine =
        .finished (.ok (.error (.unknownSymbol (value.typeName ++ "." ++ name) : Cause)))
          { engine with events, signalUses } := Eval.attempt_finished ran
    refine ⟨_, ?_, (Eval.bind_ok attempted _).trans rfl⟩
    exact ⟨_, _, _, rfl⟩
  | some inner =>
    rw [read] at ran
    have attempted : Eval.attempt (getProperty eval site value name) engine =
        .finished (.ok (.ok inner)) { engine with events, signalUses } := Eval.attempt_finished ran
    obtain ⟨after, ⟨events, signalUses, rfl⟩, used⟩ :=
      Settles.use engine .path inner { engine with events, signalUses } ⟨_, _, rfl⟩
    refine ⟨_, ?_, (Eval.bind_ok attempted _).trans (Eval.bind_ok used _)⟩
    exact ⟨_, _, _, rfl⟩

/-- A write below a stored value does to instances and to the value what it does on paper. -/
theorem setSegments_stored (eval : Evaluator) (site : Site) (content : Value) (segments : List Segment)
    (heapStored : engine.heap.Stored) (stored : value.Stored engine.heap.instances.size) :
    ∃ after, engine.Wrote (engine.heap.write content value segments).2 after ∧
      setSegments eval site value content segments engine =
        .finished ((engine.heap.write content value segments).1.mapError .failed) after := by
  -- The induction is on the path; the interpreter is the one in which the step starts.
  induction segments generalizing value engine with
  | nil => exact ⟨engine, ⟨_, _, _, rfl⟩, rfl⟩
  | cons segment rest ih =>
    cases segment with
    | index index =>
      rw [setSegments_index]
      unfold Heap.write
      cases reached : value.reach index with
      | error failure => exact ⟨engine, ⟨_, _, _, rfl⟩, rfl⟩
      | ok found =>
        obtain ⟨collection, chosen⟩ := found
        obtain ⟨_, _, elements⟩ := stored.indexed (Value.reach_ok reached).1
        obtain ⟨after, wrote, ran⟩ := ih heapStored (elements.of chosen)
        refine ⟨after, wrote, ?_⟩
        dsimp only
        cases outcome : (engine.heap.write content (chosen.of collection) rest).1 with
        | error failure =>
          rw [outcome] at ran
          exact Eval.bind_error ran _
        | ok changed =>
          rw [outcome] at ran
          refine (Eval.bind_ok ran _).trans ?_
          rw [ok_bind]
          cases chosen.put collection changed <;> rfl
    | property name =>
      cases rest with
      | nil => exact ⟨_, ⟨_, _, _, rfl⟩, setProperty_stored stored⟩
      | cons next rest =>
        obtain ⟨middle, wrote, goesOn⟩ :=
          setSegments_property eval site content stored name next rest
        have insideStored := heapStored.inside stored name
        have below := @ih middle (engine.heap.inside value name)
        rw [wrote.heap] at below
        obtain ⟨after, wroteBelow, ran⟩ := below heapStored insideStored
        rw [goesOn]
        unfold Heap.write
        revert wroteBelow ran
        generalize engine.heap.write content (engine.heap.inside value name) (next :: rest) = written
        obtain ⟨outcome, heap⟩ := written
        intro wroteBelow ran
        cases outcome with
        | error failure => exact ⟨after, wrote.trans wroteBelow, Eval.bind_error ran _⟩
        | ok changed =>
          refine ⟨_, ?_, (Eval.bind_ok ran _).trans (setProperty_stored stored)⟩
          obtain ⟨_, _, _, rfl⟩ := wrote.trans wroteBelow
          exact ⟨_, _, _, rfl⟩

/-! Stores. -/

/-- How a store at a path with properties ends: it is refused and changes nothing, or it writes below the
value that the name has, and assigns what comes of it unless that fails. -/
inductive StoreEnd (engine : Engine) (name file : String) (segments : List Segment) (value : Value) :
    Except Stop Unit → Engine → Prop
  | refused (stop : Stop) : StoreEnd engine name file segments value (.error stop) engine
  | failed {failure : Failure} {held : Heap} {final : Engine}
      (writes : engine.heap.write value (engine.root name file) segments = (.error failure, held))
      (wrote : engine.Wrote held final) :
    StoreEnd engine name file segments value (.error (.failed failure)) final
  | assigned {changed : Value} {held : Heap} {middle : Engine}
      (writes : engine.heap.write value (engine.root name file) segments = (.ok changed, held))
      (wrote : engine.Wrote held middle) :
    StoreEnd engine name file segments value (.ok ()) (middle.assign name (.variable changed) file)

/-- What is written below a name with stored properties is stored. -/
theorem Engine.Stored.root_stored (stored : engine.Stored name file) :
    (engine.root name file).Stored engine.heap.instances.size :=
  Value.stored_getD stored.root Value.stored_null

/-- A store at a path with properties ends in one of these ways. -/
theorem store_ends (eval : Evaluator) (stored : engine.Stored name site.file)
    (below : Segment.indices? segments = none) (value : Value) : ∃ result final,
      store eval site ⟨name, segments⟩ value engine = .finished result final ∧
        StoreEnd engine name site.file segments value result final := by
  have nonempty : segments.isEmpty = false := by
    cases segments with
    | nil => cases below
    | cons => rfl
  -- Whatever the write starts from, it goes on below the value of the name.
  have written : ∀ root, root = engine.root name site.file → ∃ result final,
      storeBelow eval site ⟨name, segments⟩ value root engine = .finished result final ∧
        StoreEnd engine name site.file segments value result final := by
    rintro _ rfl
    obtain ⟨middle, wrote, ran⟩ :=
      setSegments_stored eval site value segments stored.heap stored.root_stored
    unfold storeBelow
    rw [below]
    revert wrote ran
    cases writes : engine.heap.write value (engine.root name site.file) segments with
    | mk outcome held =>
      intro wrote ran
      cases outcome with
      | error failure => exact ⟨_, _, Eval.bind_error ran _, .failed writes wrote⟩
      | ok changed => exact ⟨_, _, Eval.bind_ok ran _, .assigned writes wrote⟩
  unfold store
  cases signal : value.isSignal with
  | true => exact ⟨_, _, rfl, .refused _⟩
  | false =>
    simp only [nonempty, Bool.false_eq_true, if_false]
    rw [Eval.get_bind]
    cases found : engine.resolve? name site.file with
    | none => exact written .null (by rw [Engine.root, Engine.valueOf?, found]; rfl)
    | some handler =>
      cases handler
      case «variable» root => exact written root (by rw [Engine.root, Engine.valueOf?, found]; rfl)
      all_goals exact ⟨_, _, rfl, .refused _⟩

/-! What assignments leave stored. -/

/-- A stored value stays one if a stored one is written at indices below it. -/
theorem Value.Stored.setIndexed {instances : Nat} {indices : List Value} (stored : value.Stored instances)
    (new : content.Stored instances) (succeeds : (value.setIndexed content indices).2 = .ok ()) :
    (value.setIndexed content indices).1.Stored instances := by
  induction indices generalizing value with
  | nil => exact new
  | cons index rest ih =>
    obtain ⟨collection, chosen, written, reached, below, put, result⟩ := setIndexed_through succeeds
    obtain ⟨target, data, elements⟩ := stored.indexed (reach_ok reached).1
    rw [result]
    exact target.withElements (fun _ object => nomatch data.symm.trans object)
      (elements.put put (ih (elements.of chosen) below))

/-- A path without properties is one of indices. -/
theorem eq_map_of_indices? {indices : List Value} (found : Segment.indices? segments = some indices) :
    segments = indices.map .index := by
  unfold Segment.indices? at found
  -- The induction is on the path, whose segments are all indices.
  induction segments generalizing indices with
  | nil =>
    cases found
    rfl
  | cons segment rest ih =>
    cases segment with
    | property name => cases found
    | index index =>
      rw [List.mapM_cons] at found
      obtain ⟨first, here, found⟩ := Option.bind_eq_some_iff.mp found
      obtain ⟨others, behind, found⟩ := Option.bind_eq_some_iff.mp found
      cases here
      cases found
      rw [List.map_cons, ih behind]

namespace Engine.Stored

variable {middle : Engine}

/-- Behind the assignment of a stored value, what is below the name is stored. -/
theorem assign (heapStored : middle.heap.Stored) (new : value.Stored middle.heap.instances.size) :
    (middle.assign name (.variable value) file).Stored name file where
  heap := by
    unfold Engine.assign
    rwa [bindAt_heap]
  root root found := by
    rw [valueOf?_assign] at found
    cases found
    unfold Engine.assign
    rwa [bindAt_heap]

/-- A store at a path with properties leaves stored what is below the name. -/
theorem storeEnd {result : Except Stop Unit} {final : Engine} (stored : engine.Stored name file)
    (given : value.Stored engine.heap.instances.size)
    (ends : StoreEnd engine name file segments value result final) : final.Stored name file := by
  have written := stored.heap.write stored.root_stored given segments
  have size := engine.heap.write_size value (engine.root name file) segments
  -- Nothing is written, or the heap is, or the name as well.
  cases ends with
  | refused => exact stored
  | failed writes wrote =>
    rw [writes] at written size
    refine ⟨wrote.heap ▸ written.1, fun root found => ?_⟩
    rw [wrote.heap, size]
    exact stored.root root ((wrote.valueOf? name file).symm.trans found)
  | assigned writes wrote =>
    rw [writes] at written size
    refine assign (wrote.heap ▸ written.1) ?_
    rw [wrote.heap, size]
    exact written.2 _ rfl

/-- A store at a path of indices leaves stored what is below the name. -/
theorem store_indexed {indices : List Value} {result : Except Stop Unit} {final : Engine}
    (stored : engine.Stored name site.file) (given : value.Stored engine.heap.instances.size)
    (stores : ScriptEngine.store eval site (.indexed name indices) value engine = .finished result final) :
    final.Stored name site.file := by
  cases signal : value.isSignal with
  | true =>
    unfold ScriptEngine.store at stores
    rw [signal] at stores
    cases stores
    exact stored
  | false =>
    by_cases below : indices = []
    · subst below
      unfold ScriptEngine.store at stores
      rw [signal] at stores
      cases stores
      exact assign stored.heap given
    by_cases isVariable : ∀ handler, engine.resolve? name site.file = some handler →
        ∃ root, handler = .variable root
    · rw [ScriptEngine.store_indexed below signal isVariable] at stores
      rcases Engine.updateVariable_writeIndexed indices value (at_isVariable isVariable) with
        ⟨failure, _, refused⟩ | ⟨succeeds, changed⟩
      · rw [refused] at stores
        cases stores
        exact stored
      · rw [changed] at stores
        cases stores
        -- The write starts from the value of the name, or from null where assignments find none.
        have start : (engine.written name site.file).Stored engine.heap.instances.size := by
          cases bound : engine.at? name site.file (engine.target name site.file) with
          | none =>
            rw [Engine.written, bound]
            exact Value.stored_null
          | some handler => exact stored.root _ (valueOf_written (by rw [bound]; rfl) isVariable)
        exact assign stored.heap (start.setIndexed given succeeds)
    · push Not at isVariable
      obtain ⟨handler, found, other⟩ := isVariable
      have refuses : ∃ failure, ScriptEngine.store eval site (.indexed name indices) value engine =
          .finished (.error (.failed failure)) engine := store_indexed_other below signal found other
      obtain ⟨failure, refused⟩ := refuses
      cases stores.symm.trans refused
      exact stored

/-- A store leaves stored what is below the name. -/
theorem store {result : Except Stop Unit} {final : Engine} (stored : engine.Stored name site.file)
    (given : value.Stored engine.heap.instances.size)
    (stores : ScriptEngine.store eval site ⟨name, segments⟩ value engine = .finished result final) :
    final.Stored name site.file := by
  cases below : Segment.indices? segments with
  | some indices =>
    rw [eq_map_of_indices? below] at stores
    exact stored.store_indexed given stores
  | none =>
    obtain ⟨_, _, ended, ends⟩ := store_ends eval stored below value
    cases stores.symm.trans ended
    exact stored.storeEnd given ends

end Engine.Stored

/-- An assignment of a stored value at a place below a name is carried out, or fails. -/
inductive Assigns (name file : String) (engine final : Engine) : Prop
  | intro {eval : Evaluator} {site : Site} {segments : List Segment} {value : Value}
      {result : Except Stop Unit} (here : site.file = file)
      (given : value.Stored engine.heap.instances.size)
      (stores : store eval site ⟨name, segments⟩ value engine = .finished result final) :
    Assigns name file engine final

/-- Any number of assignments leave stored what is below the name. -/
theorem Engine.Stored.assigns {start : Engine} (stored : start.Stored name file)
    (assigned : Relation.ReflTransGen (Assigns name file) start engine) : engine.Stored name file := by
  induction assigned with
  | refl => exact stored
  | tail _ last ih =>
    obtain ⟨rfl, given, stores⟩ := last
    exact ih.store given stores

/-! What is read behind a store. -/

/-- A path that ends with a property is none of indices. -/
theorem indices?_property (segments : List Segment) (name : String) :
    Segment.indices? (segments ++ [.property name]) = none := by
  unfold Segment.indices?
  induction segments with
  | nil => rfl
  | cons segment rest ih =>
    rw [List.cons_append, List.mapM_cons, ih]
    cases segment.index? <;> rfl

/-- What is at a path below the value of a name is loaded. -/
theorem load_of_at? (stored : engine.Stored name site.file) {root : Value}
    (bound : engine.valueOf? name site.file = some root)
    (found : engine.heap.at? root segments = some content) :
    ∃ after, load eval site ⟨name, segments⟩ engine = .finished (.ok content) after := by
  obtain ⟨after, _, ran⟩ := settles_loadSegments eval site stored.heap
    (stored.root root bound) found engine (.refl engine)
  refine ⟨after, ?_⟩
  unfold load
  rw [Eval.get_bind, bound]
  exact ran

/-- Whatever has been assigned below a name before, a value that is stored at a path to a property is
loaded there if the path is open; if the path up to the property is, and leads to a map in which an ad-hoc
field hides the key of that name, the field is loaded as it was. -/
theorem property_writes_read_back {start final : Engine} {property : String}
    (stored : start.Stored name site.file)
    (assigned : Relation.ReflTransGen (Assigns name site.file) start engine)
    (given : value.Stored engine.heap.instances.size)
    (stores : store eval site ⟨name, segments ++ [.property property]⟩ value engine =
      .finished (.ok ()) final) :
    let root := engine.root name site.file
    (engine.heap.Open [] root (segments ++ [.property property]) →
      ∃ after, load eval site ⟨name, segments ++ [.property property]⟩ final =
        .finished (.ok value) after) ∧
    ∀ field, engine.heap.Open [] root segments →
      (engine.heap.below root segments).hides property = true →
      (engine.heap.below root segments).field? property = some field →
      ∃ after, load eval site ⟨name, segments ++ [.property property]⟩ final =
        .finished (.ok field) after := by
  intro root
  have now := stored.assigns assigned
  obtain ⟨_, _, ended, ends⟩ :=
    store_ends eval now (indices?_property segments property) value
  cases stores.symm.trans ended
  have storedBehind := now.storeEnd given ends
  -- Only a store that succeeds assigns the name.
  cases ends with
  | @assigned changed held middle writes wrote =>
    have bound := middle.valueOf?_assign name site.file changed
    have heap : (middle.assign name (.variable changed) site.file).heap = held := by
      unfold Engine.assign
      rw [Engine.bindAt_heap, wrote.heap]
    constructor
    · intro isOpen
      refine load_of_at? storedBehind bound ?_
      rw [heap]
      exact isOpen.at?_write now.heap now.root_stored writes fun _ _ => rfl
    · intro field isOpen hidden adHoc
      refine load_of_at? storedBehind bound ?_
      rw [heap, isOpen.at?_hidden now.heap now.root_stored hidden writes, adHoc]

/-- An interpreter with a string under a key of a map in a variable. -/
def keyed : Engine := ({} : Engine).assign "m" (.variable (.map [("k", .string "one")])) "main"

/-- A new interpreter has nothing below any name. -/
theorem stored_new (name file : String) (unknown : ({} : Engine).valueOf? name file = none) :
    ({} : Engine).Stored name file where
  heap _ _ _ found := nomatch found
  root _ found := nomatch unknown.symm.trans found

/-- Behind the assignment of the string under the key, a property of the string is assigned and loaded. -/
theorem property_writes_read_back_keyed :
    Relation.ReflTransGen (Assigns "m" "main") {} keyed ∧
    ∃ final after, store (evaluator 0) ⟨"main", 1⟩ ⟨"m", [.index (.string "k"), .property "p"]⟩
        (.string "two") keyed = .finished (.ok ()) final ∧
      load (evaluator 0) ⟨"main", 1⟩ ⟨"m", [.index (.string "k"), .property "p"]⟩ final =
        .finished (.ok (.string "two")) after := by
  have made : store (evaluator 0) ⟨"main", 1⟩ ⟨"m", [.index (.string "k")]⟩ (.string "one") {} =
      .finished (.ok ()) keyed := rfl
  have assigned : Relation.ReflTransGen (Assigns "m" "main") {} keyed :=
    .single ⟨rfl, Value.stored_string _, made⟩
  obtain ⟨final, stores⟩ : ∃ final, store (evaluator 0) ⟨"main", 1⟩
      ⟨"m", [.index (.string "k")] ++ [.property "p"]⟩ (.string "two") keyed =
        .finished (.ok ()) final := ⟨_, rfl⟩
  -- The element of the map is no instance and hides nothing.
  have isOpen : keyed.heap.Open [] (keyed.root "m" "main")
      ([.index (.string "k")] ++ [.property "p"]) := by
    intro collection chosen reached
    cases reached
    exact ⟨.inr ⟨rfl, fun _ same => nomatch same⟩, trivial⟩
  obtain ⟨after, loads⟩ := (property_writes_read_back (stored_new "m" "main" rfl) assigned
    (Value.stored_string _) stores).1 isOpen
  exact ⟨assigned, final, after, stores, loads⟩

/-- A map with an ad-hoc field that has the name of a key. -/
def hiddenKey : Value := (Value.map [("p", .string "two")]).setField "p" (.string "one")

/-- Behind an assignment of the ad-hoc field and one of the key, an assignment of the property goes to the
key, and the field is loaded. -/
theorem hidden_key_is_not_loaded :
    ∃ engine final, Relation.ReflTransGen (Assigns "m" "main") {} engine ∧
      store (evaluator 0) ⟨"main", 1⟩ ⟨"m", [.property "p"]⟩ (.string "three") engine =
        .finished (.ok ()) final ∧
      load (evaluator 0) ⟨"main", 1⟩ ⟨"m", [.property "p"]⟩ final =
        .finished (.ok (.string "one")) final ∧
      Value.string "one" ≠ Value.string "three" := by
  have empty : (Value.map []).Stored 0 :=
    Value.stored_collection ⟨(Collection.Origin.holds .map).inStep,
      by simp [Collection.ofEntries, Collection.emptyMap]⟩
  -- Three assignments lead to the map: the map itself, the ad-hoc field and the key.
  let made : Engine := ({} : Engine).assign "m" (.variable (.map [])) "main"
  let fielded : Engine :=
    ({} : Engine).assign "m" (.variable ((Value.map []).setField "p" (.string "one"))) "main"
  let engine : Engine := ({} : Engine).assign "m" (.variable hiddenKey) "main"
  have first : store (evaluator 0) ⟨"main", 1⟩ ⟨"m", []⟩ (.map []) {} = .finished (.ok ()) made := rfl
  have second : store (evaluator 0) ⟨"main", 1⟩ ⟨"m", [.property "p"]⟩ (.string "one") made =
      .finished (.ok ()) fielded := rfl
  have third : store (evaluator 0) ⟨"main", 1⟩ ⟨"m", [.index (.string "p")]⟩ (.string "two") fielded =
      .finished (.ok ()) engine := rfl
  have assigned : Relation.ReflTransGen (Assigns "m" "main") {} engine :=
    ((Relation.ReflTransGen.single ⟨rfl, empty, first⟩).tail
      ⟨rfl, Value.stored_string _, second⟩).tail ⟨rfl, Value.stored_string _, third⟩
  exact ⟨engine, _, assigned, rfl, rfl, by simp [Value.string, Value.ofData]⟩

end ScriptEngine

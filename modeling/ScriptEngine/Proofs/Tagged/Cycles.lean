import Mathlib.Data.List.Sublists
import Mathlib.Logic.Relation
import ScriptEngine.Interpreter
import ScriptEngine.Proofs.Value.Clean

/-! Which values have a tagged text. Fields of instances refer to instances, and writing a value
follows these references, so that it comes to an end exactly if none of them leads back to where it
started. -/

namespace ScriptEngine

open Relation (ReflTransGen TransGen)

mutual

/-- The instances that a value refers to, apart from its ad-hoc fields. -/
def Value.handles : Value → List Nat
  | ⟨data, _, _⟩ => data.handles

/-- The instances that what a value is refers to. -/
def Data.handles : Data → List Nat
  | .returnSignal returned => returned.handles
  | .collection ⟨items, _⟩ => itemHandles items
  | .object ⟨_, .scripted id⟩ => [id]
  | _ => []

/-- The instances that elements refer to. -/
def itemHandles : List Value → List Nat
  | [] => []
  | item :: rest => item.handles ++ itemHandles rest

end

namespace Heap

variable {heap : Heap} {id other : Nat} {value : Value}

/-- A field of an instance refers to another one, or to the instance itself. -/
def Refers (heap : Heap) (id other : Nat) : Prop :=
  ∃ field ∈ (heap.fields id).entries, other ∈ field.2.handles

/-- An instance is where the references that a value starts with lead to. -/
def LeadsTo (heap : Heap) (value : Value) (id : Nat) : Prop :=
  ∃ first ∈ value.handles, ReflTransGen heap.Refers first id

/-- An instance is led back to itself. -/
def Circular (heap : Heap) (id : Nat) : Prop := TransGen heap.Refers id id

/-- No instance is led back to itself. -/
def Acyclic (heap : Heap) : Prop := ∀ id, ¬ heap.Circular id

/-- The written fields of an instance, as far as so many instances in a row reach. -/
abbrev body (heap : Heap) (hops id : Nat) : Option (List Char) :=
  Tagged.writeFields (fun id => (heap.fields id).entries) hops id

/-- The tagged text of a value, as far as so many instances in a row reach. -/
abbrev text? (heap : Heap) (hops : Nat) (value : Value) : Option String :=
  Tagged.ofValue? (fun id => (heap.fields id).entries) hops value

end Heap

namespace Tagged

variable {objectBody : Nat → Option (List Char)}

mutual

/-- A value can be written if and only if the fields of all instances that it refers to can. -/
theorem write_isSome (name : Option String) : ∀ value : Value,
    (write objectBody name value).isSome ↔ ∀ id ∈ value.handles, (objectBody id).isSome
  | ⟨data, _, _⟩ => by
    simp only [write, Value.handles]
    exact writeData_isSome name data

/-- What a value is can be written if and only if the fields of all instances that it refers to can. -/
theorem writeData_isSome (name : Option String) : ∀ data : Data,
    (writeData objectBody name data).isSome ↔ ∀ id ∈ data.handles, (objectBody id).isSome
  | .returnSignal returned => by
    simp only [writeData, Data.handles]
    exact write_isSome name returned
  | .collection ⟨items, index⟩ => by
    simp only [writeData, Data.handles, Option.isSome_map]
    exact writeItems_isSome index 0 items
  | .object ⟨_, .scripted id⟩ => by simp [writeData, Data.handles]
  | .object ⟨_, .foreign _⟩ | .undefined | .null | .number _ | .string _ | .bytes _ | .dateTime _
  | .enumeration _ | .breakSignal | .continueSignal | .quitSignal _ => by
    simp [writeData, Data.handles]

/-- Elements can be written if and only if the fields of all instances that they refer to can. -/
theorem writeItems_isSome (index : Option (List (String × Nat))) (position : Nat) :
    ∀ items : List Value, (writeItems objectBody index position items).isSome ↔
      ∀ id ∈ itemHandles items, (objectBody id).isSome
  | [] => by simp [writeItems, itemHandles]
  | item :: rest => by
    have first := write_isSome (itemName index position) item
    have later := writeItems_isSome index (position + 1) rest
    -- Both parts are there if their composition is.
    have both : (writeItems objectBody index position (item :: rest)).isSome ↔
        (write objectBody (itemName index position) item).isSome ∧
          (writeItems objectBody index (position + 1) rest).isSome := by
      simp only [writeItems]
      cases write objectBody (itemName index position) item <;>
        cases writeItems objectBody index (position + 1) rest <;> simp
    rw [both, first, later]
    simp only [itemHandles, List.mem_append, or_imp, forall_and]

end

/-- Written parts are put together if and only if all of them are there. -/
theorem foldlM_isSome {α : Type} (part : α → Option (List Char)) (parts : List α) :
    ∀ start : List Char,
      (parts.foldlM (fun written next => do return written ++ (← part next)) start).isSome ↔
        ∀ next ∈ parts, (part next).isSome := by
  induction parts with
  | nil => simp
  | cons first rest ih =>
    intro start
    cases here : part first with
    | none => simp [here]
    | some written => simpa [here] using ih (start ++ written)

end Tagged

namespace Heap

variable {heap : Heap} {hops id other : Nat} {value : Value}

/-- Writing the fields of an instance takes one hop, and the others that it has are for the instances
that these refer to. -/
theorem body_succ : (heap.body (hops + 1) id).isSome ↔
    ∀ other, heap.Refers id other → (heap.body hops other).isSome := by
  have parts : (heap.body (hops + 1) id).isSome ↔ ∀ field ∈ (heap.fields id).entries,
      (Tagged.write (heap.body hops) (some field.1) field.2).isSome :=
    Tagged.foldlM_isSome
      (fun field : String × Value => Tagged.write (heap.body hops) (some field.1) field.2) _ []
  -- Writing the fields is a pass over them, so that it succeeds where each of them can be written.
  rw [parts]
  constructor
  · rintro all other ⟨field, isField, mentioned⟩
    exact (Tagged.write_isSome _ _).mp (all field isField) other mentioned
  · intro all field isField
    exact (Tagged.write_isSome _ _).mpr fun other mentioned => all other ⟨field, isField, mentioned⟩

/-- Only an instance that is there has fields. -/
theorem Refers.lives (refers : heap.Refers id other) : id < heap.instances.size := by
  obtain ⟨field, isField, _⟩ := refers
  by_contra beyond
  -- Beyond the last instance there are no fields at all.
  have none : heap.instances[id]? = none := Array.getElem?_eq_none (by omega)
  simp [fields, none, OrderedMap.empty] at isField

/-- No number of hops is enough for an instance that leads to one that is led back to itself. -/
theorem body_endless (hops : Nat) : ∀ {id other : Nat}, ReflTransGen heap.Refers id other →
    heap.Circular other → heap.body hops id = none := by
  -- The induction is on the hops that are left: each of them ends at such an instance again.
  induction hops with
  | zero => exact fun _ _ => rfl
  | succ hops ih =>
    intro id other path circular
    have onward : ∃ next, heap.Refers id next ∧ ReflTransGen heap.Refers next other := by
      rcases path.cases_head with rfl | onward
      · exact TransGen.head'_iff.mp circular
      · exact onward
    obtain ⟨next, refers, rest⟩ := onward
    rw [← Option.not_isSome_iff_eq_none, body_succ]
    intro all
    have absent := ih rest circular
    have present := all next refers
    rw [absent] at present
    cases present

/-- If nothing that an instance leads to is led back to itself, then one hop more than there are
instances is enough, of which those that lead to the instance have taken one each. -/
theorem body_ends (hops : Nat) : ∀ {id : Nat} {passed : List Nat}, passed.Nodup →
    (∀ before ∈ passed, before < heap.instances.size ∧ TransGen heap.Refers before id) →
    heap.instances.size < hops + passed.length →
    (∀ other, ReflTransGen heap.Refers id other → ¬ heap.Circular other) →
    (heap.body hops id).isSome := by
  -- The induction is on the hops that are left; `passed` are the instances on the way, which are
  -- different, as none of them is led back to itself.
  induction hops with
  | zero =>
    intro id passed distinct before enough isOpen
    -- Without a hop left, more instances were passed than there are.
    have within : passed ⊆ List.range heap.instances.size := fun item isPassed =>
      List.mem_range.mpr (before item isPassed).1
    have few := (List.subperm_of_subset distinct within).length_le
    rw [List.length_range] at few
    omega
  | succ hops ih =>
    intro id passed distinct before enough isOpen
    rw [body_succ]
    intro other refers
    -- An instance that was passed before would be led back to itself.
    have fresh : id ∉ passed := fun isPassed => isOpen id .refl (before id isPassed).2
    have longer : (id :: passed).Nodup := List.nodup_cons.mpr ⟨fresh, distinct⟩
    refine ih longer ?_ ?_ ?_
    · intro item isPassed
      rcases List.mem_cons.mp isPassed with rfl | earlier
      · exact ⟨refers.lives, .single refers⟩
      · exact ⟨(before item earlier).1, (before item earlier).2.tail refers⟩
    · rw [List.length_cons]
      omega
    · exact fun last path => isOpen last (.head refers path)

/-- A value has a text if the fields of all instances that it refers to have. -/
theorem text?_isSome : (heap.text? hops value).isSome ↔
    ∀ id ∈ value.handles, (heap.body hops id).isSome := by
  unfold text? Tagged.ofValue?
  rw [Option.isSome_map, Tagged.write_isSome]

/-- A value that leads to an instance that is led back to itself has no text. -/
theorem text?_endless (leads : heap.LeadsTo value id) (circular : heap.Circular id) (hops : Nat) :
    heap.text? hops value = none := by
  obtain ⟨first, mentioned, path⟩ := leads
  rw [← Option.not_isSome_iff_eq_none, text?_isSome]
  intro all
  have present := all first mentioned
  rw [body_endless _ path circular] at present
  cases present

/-- A value that leads to none has a text. -/
theorem text?_ends (isOpen : ∀ id, heap.LeadsTo value id → ¬ heap.Circular id) :
    (heap.text? (heap.instances.size + 1) value).isSome := by
  rw [text?_isSome]
  intro first mentioned
  exact body_ends _ .nil (by simp) (by simp)
    fun id path => isOpen id ⟨first, mentioned, path⟩

section Writes

variable {name : String} {content : Value} {source target : Nat}

/-- The fields of an instance behind a write are those that it had, and the written one. -/
theorem fields_setField (lives : id < heap.instances.size) (other : Nat) :
    (heap.setField id name content).fields other =
      if other = id then (heap.fields id).insert name content else heap.fields other := by
  unfold fields setField
  rw [Array.getElem?_modify]
  by_cases same : other = id
  · subst same
    simp [Array.getElem?_eq_getElem lives]
  · simp [same, Ne.symm same]

/-- Behind a write only the instance that was written to refers to anything else than before, and that
is what is written. -/
theorem Refers.of_setField (lives : id < heap.instances.size)
    (refers : (heap.setField id name content).Refers source target) :
    heap.Refers source target ∨ source = id ∧ target ∈ content.handles := by
  obtain ⟨field, isField, mentioned⟩ := refers
  rw [fields_setField lives] at isField
  split at isField
  case isTrue same =>
    subst same
    -- A field is the written one or an old one.
    rcases OrderedMap.mem_insert isField with rfl | old
    · exact .inr ⟨rfl, mentioned⟩
    · exact .inl ⟨field, old, mentioned⟩
  case isFalse => exact .inl ⟨field, isField, mentioned⟩

/-- The other instances refer to what they have referred to. -/
theorem Refers.setField (lives : id < heap.instances.size) (refers : heap.Refers source target)
    (distinct : source ≠ id) : (heap.setField id name content).Refers source target := by
  obtain ⟨field, isField, mentioned⟩ := refers
  exact ⟨field, by rwa [fields_setField lives, if_neg distinct], mentioned⟩

/-- The instance that was written to refers to what is written. -/
theorem refers_setField_self (lives : id < heap.instances.size) (mentioned : target ∈ content.handles) :
    (heap.setField id name content).Refers id target := by
  refine ⟨(name, content), ?_, mentioned⟩
  rw [fields_setField lives, if_pos rfl]
  exact OrderedMap.mem_of_get? (OrderedMap.get?_insert_self _ _ _)

/-- Whether there is a way to an instance does not depend on what that one refers to. -/
theorem reaches_of_others {before after : Nat → Nat → Prop} {first : Nat}
    (kept : ∀ source target, source ≠ id → before source target → after source target)
    (path : ReflTransGen before first id) : ReflTransGen after first id := by
  -- The induction goes along the way until it comes to the instance for the first time.
  induction path using ReflTransGen.head_induction_on with
  | refl => exact .refl
  | @head source target step _ ih =>
    by_cases here : source = id
    · rw [here]
    · exact .head (kept source target here step) ih

/-- A way behind a write was there before, or else it uses what was written. -/
theorem path_setField (lives : id < heap.instances.size)
    (path : TransGen (heap.setField id name content).Refers source target) :
    TransGen heap.Refers source target ∨ ∃ first ∈ content.handles,
      ReflTransGen (heap.setField id name content).Refers source id ∧
        ReflTransGen (heap.setField id name content).Refers first target := by
  induction path with
  | single refers =>
    rcases refers.of_setField lives with old | ⟨rfl, mentioned⟩
    · exact .inl (.single old)
    · exact .inr ⟨_, mentioned, .refl, .refl⟩
  | tail path refers ih =>
    rcases ih with old | ⟨first, mentioned, toward, away⟩
    · -- The last step is an old one, or it starts at the instance that was written to.
      rcases refers.of_setField lives with last | ⟨rfl, mentioned⟩
      · exact .inl (old.tail last)
      · exact .inr ⟨_, mentioned, path.to_reflTransGen, .refl⟩
    · exact .inr ⟨first, mentioned, toward, away.tail refers⟩

/-- A write leaves instances apart from themselves if and only if what is written does not lead to the
instance that is written to. -/
theorem acyclic_setField (acyclic : heap.Acyclic) (lives : id < heap.instances.size) :
    (heap.setField id name content).Acyclic ↔ ¬ heap.LeadsTo content id := by
  constructor
  · rintro isOpen ⟨first, mentioned, path⟩
    -- The written value closes the circle.
    refine isOpen id (.head' (refers_setField_self lives mentioned) ?_)
    exact reaches_of_others (fun _ _ distinct refers => refers.setField lives distinct) path
  · rintro isOpen other circular
    -- A circle that is new passes the written value, which so leads to the instance.
    rcases path_setField lives circular with old | ⟨first, mentioned, toward, away⟩
    · exact acyclic other old
    · refine isOpen ⟨first, mentioned, reaches_of_others ?_ (away.trans toward)⟩
      intro source target distinct refers
      rcases refers.of_setField lives with old | ⟨same, _⟩
      · exact old
      · exact absurd same distinct

end Writes

end Heap

/-- A call of `marshal` hands out the text of the value, and changes nothing. -/
theorem runBuiltin_marshal (eval : Evaluator) (site : Site) (engine : Engine) (value : Value) :
    runBuiltin eval site [value] .marshal engine =
      match engine.heap.text? (engine.heap.instances.size + 1) value with
      | some text => .finished (.ok (.string text)) engine
      | none => .finished (.error .exhausted) engine := by
  -- The text depends on the heap alone.
  have marshalled : marshal value engine =
      match engine.heap.text? (engine.heap.instances.size + 1) value with
      | some text => .finished (.ok text) engine
      | none => .finished (.error .exhausted) engine := by
    change (match engine.heap.text? (engine.heap.instances.size + 1) value with
      | some text => (pure text : Eval String)
      | none => throw Stop.exhausted) engine = _
    cases engine.heap.text? (engine.heap.instances.size + 1) value <;> rfl
  change (marshal value engine).andThen _ = _
  rw [marshalled]
  cases engine.heap.text? (engine.heap.instances.size + 1) value <;> rfl

/-- The call of `marshal` ends with a text exactly if no instance that the value leads to is led back to
itself, and otherwise no depth of recursion is enough for it. A write of a field keeps all instances
from being led back to themselves exactly if the written value does not lead to the instance, and stores
the value in any case. -/
theorem marshalling_ends_unless_cyclic (eval : Evaluator) (site : Site) (engine : Engine) :
    (∀ value, (∃ text, runBuiltin eval site [value] .marshal engine =
          .finished (.ok (.string text)) engine) ↔
        ∀ id, engine.heap.LeadsTo value id → ¬ engine.heap.Circular id) ∧
    (∀ value id, engine.heap.LeadsTo value id → engine.heap.Circular id →
      ∀ hops, engine.heap.text? hops value = none) ∧
    (∀ handle typeTag id name content, handle.data = .object ⟨typeTag, .scripted id⟩ →
      handle.setter? name = none → id < engine.heap.instances.size → engine.heap.Acyclic →
      ∃ final, setProperty eval site handle name content engine = .finished (.ok handle) final ∧
        (final.heap.fields id).get? name = some content ∧
        (final.heap.Acyclic ↔ ¬ engine.heap.LeadsTo content id)) := by
  refine ⟨fun value => ?_, fun _ _ leads circular => Heap.text?_endless leads circular, ?_⟩
  · rw [runBuiltin_marshal]
    constructor
    · rintro ⟨text, ended⟩ id leads circular
      rw [Heap.text?_endless leads circular] at ended
      cases ended
    · intro isOpen
      obtain ⟨text, found⟩ := Option.isSome_iff_exists.mp (Heap.text?_ends isOpen)
      exact ⟨text, by rw [found]⟩
  · -- The write leaves the heap with one field changed, and the handle is what it yields.
    intro handle typeTag id name content data plain lives acyclic
    refine ⟨{ engine with heap := engine.heap.setField id name content }, ?_, ?_,
      Heap.acyclic_setField acyclic lives⟩
    · unfold setProperty
      rw [plain, data]
      rfl
    · rw [Heap.fields_setField lives, if_pos rfl, OrderedMap.get?_insert_self]

/-- An interpreter whose only instance has an empty field. -/
def singleInstance : Engine :=
  ((Interpreter.new {} {}).process "class C { next = null; } c = new C();" "main" true).2.engine

/-- The handle of that instance. -/
def singleHandle : Value := .ofData (.object ⟨"C", .scripted 0⟩)

/-- The instance has a text until it is stored in its own field. -/
theorem marshalling_ends_unless_cyclic_single :
    (∃ text, runBuiltin hostEvaluator ⟨"main", 1⟩ [singleHandle] .marshal singleInstance =
      .finished (.ok (.string text)) singleInstance) ∧
    ∃ final, setProperty hostEvaluator ⟨"main", 1⟩ singleHandle "next" singleHandle singleInstance =
      .finished (.ok singleHandle) final ∧ ¬ final.heap.Acyclic := by
  -- There is one instance, whose only field refers to none.
  have single : singleInstance.heap.instances.size = 1 := by decide +kernel
  have bare : (singleInstance.heap.fields 0).entries.map (·.2.handles) = [[]] := by decide +kernel
  have free : ∀ id other, ¬ singleInstance.heap.Refers id other := by
    intro id other refers
    have first : id = 0 := by
      have lives := refers.lives
      omega
    subst first
    obtain ⟨field, isField, mentioned⟩ := refers
    have listed := List.mem_map_of_mem (f := fun entry => entry.2.handles) isField
    rw [bare, List.mem_singleton] at listed
    rw [listed] at mentioned
    cases mentioned
  have acyclic : singleInstance.heap.Acyclic := fun id circular => by
    obtain ⟨other, refers, _⟩ := TransGen.head'_iff.mp circular
    exact free id other refers
  have settled := marshalling_ends_unless_cyclic hostEvaluator ⟨"main", 1⟩ singleInstance
  refine ⟨(settled.1 singleHandle).mpr fun id _ => acyclic id, ?_⟩
  obtain ⟨final, written, _, kept⟩ :=
    settled.2.2 singleHandle "C" 0 "next" singleHandle rfl rfl (by omega) acyclic
  have leads : singleInstance.heap.LeadsTo singleHandle 0 := ⟨0, by decide, .refl⟩
  exact ⟨final, written, fun still => kept.mp still leads⟩

/-- A script that stores an instance in a field of that instance. -/
def ownReference : String := "class C { next = null; } c = new C(); c.next = c;"

/-- No depth of recursion is enough to write the instance. -/
theorem own_reference_has_no_text :
    let engine := ((Interpreter.new {} {}).process ownReference "main" true).2.engine
    ∃ value, engine.valueOf? "c" "main" = some value ∧
      ∀ hops, engine.heap.text? hops value = none := by
  intro engine
  have stored : (engine.valueOf? "c" "main").map Value.handles = some [0] := by decide +kernel
  have refers : (engine.heap.fields 0).entries.map (·.2.handles) = [[0]] := by decide +kernel
  obtain ⟨value, bound, mentions⟩ := Option.map_eq_some_iff.mp stored
  have circular : engine.heap.Circular 0 := by
    -- Its own field refers to it.
    have isField : [0] ∈ (engine.heap.fields 0).entries.map (·.2.handles) := by rw [refers]; simp
    obtain ⟨field, here, same⟩ := List.mem_map.mp isField
    exact .single ⟨field, here, by rw [same]; simp⟩
  exact ⟨value, bound, Heap.text?_endless ⟨0, by rw [mentions]; simp, .refl⟩ circular⟩

end ScriptEngine

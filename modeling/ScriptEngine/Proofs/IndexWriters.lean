import ScriptEngine.Interpreter
import ScriptEngine.Proofs.Engine.Scoping
import ScriptEngine.Proofs.IndexedWrite
import ScriptEngine.Proofs.Value.Commuting

/-! Workers that write elements of one variable: however their writes interleave, the variable comes
out the same, with all that was written in it. -/

namespace ScriptEngine

/-- A write below a variable at a path of indices that a worker is about to do. -/
structure IndexStore where
  /-- The worker as it comes to the write. -/
  worker : Thread Value
  site : Site
  name : String
  index : Value
  /-- The indices behind the first one. -/
  rest : List Value := []
  value : Value

namespace IndexStore

/-- The path of a write. -/
def indices (store : IndexStore) : List Value := store.index :: store.rest

/-- The worker with nothing but the write in its turn. -/
def turn (eval : Evaluator) (write : IndexStore) : Thread Unit where
  id := write.worker.id
  stack := write.worker.stack
  calls := write.worker.calls
  events := write.worker.events
  callLog := write.worker.callLog
  readyAt := write.worker.readyAt
  wait := write.worker.wait
  resume := store eval write.site (.indexed write.name write.indices) write.value

/-- The workers take their turns in the order of the writes, as long as these succeed. -/
def runAll? (eval : Evaluator) : List IndexStore → Interpreter → Option Interpreter
  | [], interpreter => some interpreter
  | write :: rest, interpreter =>
    match interpreter.takeTurn (write.turn eval) with
    | (.inl (.ok ()), behind) => runAll? eval rest behind
    | _ => none

end IndexStore

namespace Engine

variable {engine before after : Engine} {name file : String} {slot : Slot}

/-- The value of the variable in a slot, and null if there is none. -/
def valueIn (engine : Engine) (slot : Slot) : Value :=
  ((engine.bound? slot).bind Handler.value?).getD .null

/-- There is one slot that an assignment goes to. -/
theorem slot_of_destination (goes : Destination engine name file slot) :
    (engine.target name file).slot name file = slot := by
  rw [slot_target]
  have found : engine.found? name file = _ := List.find?_append
  cases first : (engine.assignable name file).find? fun slot => (engine.bound? slot).isSome with
  | some one =>
    rw [first, Option.some_or] at found
    have changeable := changeable_of_assignable (List.mem_of_find?_eq_some first)
    cases goes with
    | existing there => exact Option.some.inj (found.symm.trans there)
    | fresh elsewhere => exact absurd (elsewhere one found) changeable
  | none =>
    rw [first, Option.none_or] at found
    cases goes with
    | existing there changeable =>
      -- Behind the slots that can be assigned come the natives alone.
      have last := List.mem_of_find?_eq_some (found.symm.trans there)
      split at last
      · simp at last
      · rw [List.mem_singleton.mp last] at changeable
        exact absurd rfl changeable
    | fresh => rfl

/-- Where an assignment goes can be assigned. -/
theorem slot_target_assignable (engine : Engine) (name file : String) :
    (engine.target name file).slot name file ∈ engine.assignable name file := by
  rw [slot_target]
  cases first : (engine.assignable name file).find? fun slot => (engine.bound? slot).isSome with
  | some one => exact List.mem_of_find?_eq_some first
  | none => exact engine.freshSlot_assignable name file

/-- The first hit of a search stays the first one if only its own test changes. -/
theorem find?_of_others {α : Type} {searched : List α} {test before : α → Bool} {hit : α}
    (member : hit ∈ searched) (now : test hit = true)
    (others : ∀ other, other ≠ hit → test other = before other)
    (first : ∀ other, searched.find? before = some other → other = hit) :
    searched.find? test = some hit := by
  -- The induction is on what is searched; in front of the hit nothing is found, before or now.
  induction searched with
  | nil => cases member
  | cons one rest ih =>
    by_cases same : one = hit
    · rw [same, List.find?_cons_of_pos now]
    · have missed : before one = false := by
        by_contra tested
        exact same (first one (List.find?_cons_of_pos (by simpa using tested)))
      rw [List.find?_cons_of_neg (by simp [others one same, missed])]
      refine ih ((List.mem_cons.mp member).resolve_left (Ne.symm same)) fun other found => ?_
      exact first other (by rw [List.find?_cons_of_neg (by simp [missed]), found])

/-- An assignment goes to the same slot as before if nothing else has changed than what is bound
there. -/
theorem slot_target_after (sameStack : after.stack = before.stack)
    (others : ∀ other, other ≠ slot → after.bound? other = before.bound? other)
    (bound : after.bound? slot = before.bound? slot ∨ (after.bound? slot).isSome)
    (goes : (before.target name file).slot name file = slot) :
    (after.target name file).slot name file = slot := by
  -- The slots that can be assigned to depend on the stack alone.
  have sameScopes : after.assignable name file = before.assignable name file := by
    simp only [assignable, frameScopes, sameStack]
  have sameFresh : after.freshSlot name = before.freshSlot name := by
    simp only [freshSlot, sameStack]
  have member := before.slot_target_assignable name file
  rw [slot_target] at goes member ⊢
  rw [goes] at member
  rw [sameScopes, sameFresh]
  rcases bound with same | bound
  · have alike : after.bound? = before.bound? := by
      funext other
      by_cases here : other = slot
      · rw [here, same]
      · exact others other here
    rw [alike, goes]
  · rw [find?_of_others member bound (fun other differs => by rw [others other differs])
      fun other found => by rw [← goes, found, Option.getD_some], Option.getD_some]

/-- What is bound outside the frames does not depend on the thread that looks. -/
theorem bound_enter {α : Type} (thread : Thread α) (engine : Engine)
    (shared : ∀ level, slot.scope ≠ .frame level) :
    (thread.enter engine).bound? slot = engine.bound? slot := by
  obtain ⟨scope, name⟩ := slot
  cases scope with
  | frame level => exact absurd rfl (shared level)
  | _ => rfl

/-- Outside a slot that the threads share nothing has been bound, and it has been bound at most. -/
structure WrittenAt (before after : Engine) (slot : Slot) : Prop where
  others : ∀ other, other ≠ slot → (∀ level, other.scope ≠ .frame level) →
    after.bound? other = before.bound? other
  bound : after.bound? slot = before.bound? slot ∨ (after.bound? slot).isSome

/-- A thread goes on to assign where it did before. -/
theorem WrittenAt.slot_target_enter {α : Type} (written : WrittenAt before after slot)
    (thread : Thread α) (shared : ∀ level, slot.scope ≠ .frame level)
    (goes : ((thread.enter before).target name file).slot name file = slot) :
    ((thread.enter after).target name file).slot name file = slot := by
  refine slot_target_after ?_ (fun other differs => ?_) ?_ goes
  · rfl
  · obtain ⟨scope, name⟩ := other
    cases scope with
    | frame level => rfl
    | _ => exact written.others _ differs (by simp)
  · rw [bound_enter thread after shared, bound_enter thread before shared]
    exact written.bound

end Engine

/-- A write at a path that succeeds changes the slot that an assignment goes to, as a write below the
value that is there, and nothing else. -/
theorem store_indexed_ok {eval : Evaluator} {site : Site} {engine after : Engine} {name : String}
    {indices : List Value} {value : Value} (below : indices ≠ [])
    (succeeds : store eval site (.indexed name indices) value engine = .finished (.ok ()) after) :
    ∃ slot root, (engine.target name site.file).slot name site.file = slot ∧
      (engine.valueIn slot).setIndexed value indices = (root, .ok ()) ∧
      engine.WritesOnly after slot (.variable root) := by
  -- A write that succeeds neither stores a signal nor meets anything but a variable.
  have plain : value.isSignal = false := by
    by_contra signal
    rw [Bool.not_eq_false] at signal
    unfold store at succeeds
    rw [if_pos signal] at succeeds
    cases succeeds
  have isVariable : ∀ handler, engine.resolve? name site.file = some handler →
      ∃ root, handler = .variable root := by
    intro handler found
    by_contra other
    obtain ⟨failure, refused⟩ : ∃ failure, store eval site (.indexed name indices) value engine = _ :=
      store_indexed_other below plain found fun root same => other ⟨root, same⟩
    rw [refused] at succeeds
    cases succeeds
  rw [store_indexed below plain isVariable] at succeeds
  rcases Engine.updateVariable_writeIndexed indices value (at_isVariable isVariable) with
    ⟨failure, -, refused⟩ | ⟨written, changed⟩
  · rw [refused] at succeeds
    cases succeeds
  · rw [changed] at succeeds
    cases succeeds
    refine ⟨_, _, rfl, ?_, Engine.writesOnly_bindAt (engine.reaches_target name site.file) ..⟩
    rw [Engine.valueIn, ← Engine.at_eq_bound (engine.reaches_target name site.file)]
    exact Prod.ext rfl written

namespace IndexStore

variable {eval : Evaluator} {write : IndexStore} {start now behind final : Interpreter} {slot : Slot}
  {writes order : List IndexStore}

/-- The turn of a writer that succeeds writes below the value in the slot that it is aimed at, and
nothing else. -/
theorem takeTurn_ok (shared : ∀ level, slot.scope ≠ .frame level)
    (written : start.engine.WrittenAt now.engine slot)
    (aimed : (write.worker.enter start.engine).Destination write.name write.site.file slot)
    (succeeds : now.takeTurn (write.turn eval) = (.inl (.ok ()), behind)) :
    ∃ root, (now.engine.valueIn slot).setIndexed write.value write.indices = (root, .ok ()) ∧
      behind.engine.bound? slot = some (.variable root) ∧
      start.engine.WrittenAt behind.engine slot := by
  have goes := written.slot_target_enter write.worker shared (Engine.slot_of_destination aimed)
  unfold Interpreter.takeTurn at succeeds
  cases turn : (write.turn eval).resume ((write.turn eval).enter now.engine) with
  | paused wait engine resume => simp [turn] at succeeds
  | finished result engine =>
    simp only [turn, Prod.mk.injEq, Sum.inl.injEq] at succeeds
    obtain ⟨rfl, rfl⟩ := succeeds
    obtain ⟨there, root, same, changed, only⟩ := store_indexed_ok (by simp [indices]) turn
    obtain rfl : slot = there := goes.symm.trans same
    -- Making the worker the running one does not change what is bound in the slot.
    have entered : ((write.turn eval).enter now.engine).valueIn slot = now.engine.valueIn slot := by
      rw [Engine.valueIn, Engine.bound_enter _ _ shared, Engine.valueIn]
    rw [entered] at changed
    refine ⟨root, changed, only.written, fun other differs outside => ?_, .inr ?_⟩
    · rw [← written.others other differs outside,
        ← Engine.bound_enter (write.turn eval) now.engine outside]
      exact only.others other differs
    · exact Option.isSome_iff_exists.mpr ⟨_, only.written⟩

/-- Turns of writers that succeed write below the value in their slot one after the other. -/
theorem runAll_ok (shared : ∀ level, slot.scope ≠ .frame level)
    (written : start.engine.WrittenAt now.engine slot)
    (aimed : ∀ write ∈ writes,
      (write.worker.enter start.engine).Destination write.name write.site.file slot)
    (ran : runAll? eval writes now = some final) :
    (now.engine.valueIn slot).writeAll? (writes.map fun write => (write.indices, write.value)) =
      some (final.engine.valueIn slot) := by
  -- The induction is on the writes still to come; the slot they are aimed at stays the same.
  induction writes generalizing now with
  | nil =>
    cases ran
    rfl
  | cons write rest ih =>
    rw [runAll?] at ran
    split at ran
    next behind succeeds =>
      obtain ⟨root, changed, bound, writtenNow⟩ :=
        takeTurn_ok shared written (aimed write List.mem_cons_self) succeeds
      have value : behind.engine.valueIn slot = root := by
        rw [Engine.valueIn, bound]
        rfl
      have others := ih writtenNow (fun other member => aimed other (List.mem_cons_of_mem _ member)) ran
      rw [value] at others
      rw [List.map_cons, Value.writeAll_cons, changed]
      exact ⟨rfl, others⟩
    next => cases ran

end IndexStore

/-- Workers that write elements of one shared variable never lose one of another's. The paths of any two
writes part at two positions. However the writes interleave, as long as all succeed, the variable comes
out the same, and at each path stands what was written there. -/
theorem index_writers_keep_elements (eval : Evaluator) (start : Interpreter) (slot : Slot)
    (shared : ∀ level, slot.scope ≠ .frame level) (writes : List IndexStore)
    (aimed : ∀ write ∈ writes,
      (write.worker.enter start.engine).Destination write.name write.site.file slot)
    (apart : writes.Pairwise fun write other => Value.Part write.indices other.indices)
    (kept : (start.engine.valueIn slot).Kept) (contents : ∀ write ∈ writes, write.value.Kept)
    (order other : List IndexStore) (reordered : writes.Perm order) (also : writes.Perm other)
    (final last : Interpreter) (ran : IndexStore.runAll? eval order start = some final)
    (alsoRan : IndexStore.runAll? eval other start = some last) :
    last.engine.valueIn slot = final.engine.valueIn slot ∧
      ∀ write ∈ writes, (final.engine.valueIn slot).indexAll write.indices = .ok write.value := by
  have untouched : start.engine.WrittenAt start.engine slot := ⟨fun _ _ _ => rfl, .inl rfl⟩
  -- Any order comes to what the writes would come to as they are listed.
  have asListed : ∀ {order : List IndexStore} {final : Interpreter}, writes.Perm order →
      IndexStore.runAll? eval order start = some final →
      (start.engine.valueIn slot).writeAll?
          (writes.map fun write => (write.indices, write.value)) =
        some (final.engine.valueIn slot) := by
    intro order final reordered ran
    have inOrder := IndexStore.runAll_ok shared untouched
      (fun write member => aimed write (reordered.mem_iff.mpr member)) ran
    refine Value.writeAll_perm (reordered.symm.map _) ?_ kept ?_ inOrder
    · exact List.pairwise_map.mpr ((reordered.pairwise_iff Value.Part.symm).mp apart)
    · intro write member
      obtain ⟨listed, within, rfl⟩ := List.mem_map.mp member
      exact contents listed (reordered.mem_iff.mpr within)
  refine ⟨Option.some.inj ((asListed also alsoRan).symm.trans (asListed reordered ran)), ?_⟩
  have read := Value.indexAll_writeAll (List.pairwise_map.mpr apart) kept
    (fun write member => by
      obtain ⟨listed, within, rfl⟩ := List.mem_map.mp member
      exact contents listed within) (asListed reordered ran)
  exact fun write member => read _ (List.mem_map_of_mem member)

/-- An interpreter with an empty list among the globals. -/
def sharedList : Interpreter :=
  { engine := ({} : Engine).register "g" (.variable (.array [])) false }

/-- A worker with a stack of its own that comes to a write below the list. -/
def listWriter (worker : Nat) (index : Value) (rest : List Value) (value : Value) : IndexStore where
  worker := ⟨worker, ScopeStack.fork {}, [], [], [], 0, .turn, fun engine => .finished (.ok .null) engine⟩
  site := ⟨"main", 1⟩
  name := "g"
  index := index
  rest := rest
  value := value

/-- Three writes of two workers: two into a list that is made on the way, and one beyond it. -/
def listWrites : List IndexStore :=
  [listWriter 1 (.ofNat 0) [.ofNat 1] (.string "a"), listWriter 2 (.ofNat 2) [] (.string "b"),
    listWriter 1 (.ofNat 0) [.ofNat 0] (.string "c")]

/-- The writes in reverse order come to the same list, with all three elements in it. -/
theorem index_writers_keep_elements_nested :
    ∃ final last, IndexStore.runAll? (evaluator 0) listWrites sharedList = some final ∧
      IndexStore.runAll? (evaluator 0) listWrites.reverse sharedList = some last ∧
      last.engine.valueIn ⟨.globals, "g"⟩ = final.engine.valueIn ⟨.globals, "g"⟩ ∧
      ∀ write ∈ listWrites,
        (final.engine.valueIn ⟨.globals, "g"⟩).indexAll write.indices = .ok write.value := by
  obtain ⟨final, ran⟩ := Option.isSome_iff_exists.mp (show
    (IndexStore.runAll? (evaluator 0) listWrites sharedList).isSome = true by decide +kernel)
  obtain ⟨last, alsoRan⟩ := Option.isSome_iff_exists.mp (show
    (IndexStore.runAll? (evaluator 0) listWrites.reverse sharedList).isSome = true by decide +kernel)
  -- The three paths part from each other at their first or second index.
  have zero : (Value.ofNat 0).selector = .ok (.position 0) := by decide +kernel
  have one : (Value.ofNat 1).selector = .ok (.position 1) := by decide +kernel
  have two : (Value.ofNat 2).selector = .ok (.position 2) := by decide +kernel
  have apart : listWrites.Pairwise fun write other => Value.Part write.indices other.indices := by
    simp only [listWrites, List.pairwise_cons, List.mem_cons, List.not_mem_nil, or_false,
      forall_eq_or_imp, forall_eq]
    refine ⟨⟨.here zero two (by decide), .deeper rfl (.here one zero (by decide))⟩,
      .here two zero (by decide), ?_⟩
    simp
  have aimed : ∀ write ∈ listWrites, (write.worker.enter sharedList.engine).Destination write.name
      write.site.file ⟨.globals, "g"⟩ := by
    simp only [listWrites, List.mem_cons, List.not_mem_nil, or_false, forall_eq_or_imp, forall_eq]
    exact ⟨.existing rfl nofun, .existing rfl nofun, .existing rfl nofun⟩
  have kept : (sharedList.engine.valueIn ⟨.globals, "g"⟩).Kept :=
    .node rfl (Collection.Origin.holds (.array [])).inStep (by simp [Collection.ofItems])
  have contents : ∀ write ∈ listWrites, write.value.Kept := by
    simp only [listWrites, List.mem_cons, List.not_mem_nil, or_false, forall_eq_or_imp, forall_eq]
    exact ⟨.leaf rfl, .leaf rfl, .leaf rfl⟩
  exact ⟨final, last, ran, alsoRan, index_writers_keep_elements (evaluator 0) sharedList
    ⟨.globals, "g"⟩ (by simp) listWrites aimed apart kept contents listWrites listWrites.reverse
    (.refl _) (List.reverse_perm _).symm final last ran alsoRan⟩

end ScriptEngine

import ScriptEngine.Proofs.Collection.Edits
import ScriptEngine.Eval.Place

/-! Paths of indices below a value: what is written at one is read there, and what is read at a path
that leads to another element stays as it was. -/

namespace ScriptEngine

namespace Collection

variable {α : Type} {collection : Collection α} {held : List (Entry α)}

/-- The first entry of a key behind a write under a key. -/
theorem Entries.find_insertKey (held : List (Entry α)) (key other : String) (value : α) :
    ((Entries.insertKey held key value).find? (·.1 == some other)).map (·.2) =
      if other = key then some value else (held.find? (·.1 == some other)).map (·.2) := by
  rw [Entries.insertKey]
  by_cases present : held.any (·.1 == some key)
  · -- The keys of the entries stay, so that the same entry is found.
    have sameKeys : (fun entry : Entry α => entry.1 == some other) ∘
        (fun entry => if entry.1 == some key then (entry.1, value) else entry) =
        fun entry => entry.1 == some other := by
      funext entry
      by_cases named : entry.1 = some key <;> simp [named]
    rw [if_pos present, List.find?_map, sameKeys]
    by_cases same : other = key
    · subst same
      obtain ⟨entry, isHeld, named⟩ := List.any_eq_true.mp present
      obtain ⟨first, found⟩ : ∃ first, held.find? (·.1 == some other) = some first :=
        Option.isSome_iff_exists.mp (List.find?_isSome.mpr ⟨entry, isHeld, named⟩)
      have firstNamed := List.find?_some (p := fun entry : Entry α => entry.1 == some other) found
      simp only [beq_iff_eq] at firstNamed
      simp [found, firstNamed]
    · rw [if_neg same]
      cases found : held.find? (·.1 == some other) with
      | none => rfl
      | some first =>
        have firstNamed := List.find?_some (p := fun entry : Entry α => entry.1 == some other) found
        have differs : first.1 ≠ some key := by
          intro named
          simp only [named, beq_iff_eq, Option.some.injEq] at firstNamed
          exact same firstNamed.symm
        simp [differs]
  · -- Without an entry of the key, one is added at the end, behind everything that is found first.
    have absent : held.find? (·.1 == some key) = none :=
      List.find?_eq_none.mpr fun entry isHeld named =>
        present (List.any_eq_true.mpr ⟨entry, isHeld, named⟩)
    rw [if_neg present, List.find?_append]
    by_cases same : other = key
    · subst same
      simp [absent]
    · have differs : ¬ key = other := fun equal => same equal.symm
      simp [same, differs]

/-- A value that is stored under a key is read under it, and other keys read as before. -/
theorem InStep.getKey_insertKey (inStep : collection.InStep) (key other : String) (value : α) :
    (collection.insertKey key value).getKey? other =
      if other = key then some value else collection.getKey? other := by
  rw [(inStep.holds.insertKey key value).lists.getKey, inStep.holds.lists.getKey]
  exact Entries.find_insertKey _ key other value

/-- A write at a position replaces the element there, or appends one behind a gap. -/
theorem setAt_ok {gap value : α} {position : Nat} {written : Collection α}
    (stored : collection.setAt gap position value = .ok written) :
    (position < collection.size ∧
        written = { collection with items := collection.items.set position value }) ∨
      (collection.size ≤ position ∧ checkGrowth position = .ok () ∧
        written = { collection with items := collection.items ++
          (List.replicate (position - collection.size) gap ++ [value]) }) := by
  rw [setAt] at stored
  -- Within the size nothing grows, and beyond it the growth has been checked.
  by_cases within : position < collection.size
  · rw [if_pos within] at stored
    exact .inl ⟨within, (Except.ok.inj stored).symm⟩
  · rw [if_neg within] at stored
    obtain ⟨⟨⟩, allowed, rest⟩ := ok_of_bind stored
    exact .inr ⟨Nat.not_lt.mp within, allowed, (Except.ok.inj rest).symm⟩

/-- Elements with a gap and one more behind them: a gap reads like nothing. -/
theorem getD_padded (items : List α) (gap value : α) {position : Nat} (beyond : items.length ≤ position)
    (other : Nat) :
    (items ++ (List.replicate (position - items.length) gap ++ [value]))[other]?.getD gap =
      if other = position then value else items[other]?.getD gap := by
  -- What is read stands among the old elements, in the gap, at the end, or nowhere.
  rcases Nat.lt_or_ge other items.length with old | new
  · have differs : ¬ other = position := by omega
    rw [List.getElem?_append_left old, if_neg differs]
  · rw [List.getElem?_append_right new, List.getElem?_eq_none new, Option.getD_none]
    rcases Nat.lt_trichotomy other position with gapped | rfl | beyond
    · have differs : ¬ other = position := by omega
      have inGap : other - items.length <
          (List.replicate (position - items.length) gap).length := by
        simp only [List.length_replicate]
        omega
      rw [List.getElem?_append_left inGap, if_neg differs, List.getElem?_eq_getElem inGap]
      simp
    · simp
    · have differs : ¬ other = position := by omega
      rw [if_neg differs, List.getElem?_eq_none (by simp; omega), Option.getD_none]

/-- A value that is stored at a position is read there, and other positions read as before, where a
gap reads like nothing. -/
theorem getD_setAt {gap : α} {position : Nat} {value : α} {written : Collection α}
    (stored : collection.setAt gap position value = .ok written) (other : Nat) :
    (written.get? other).getD gap =
      if other = position then value else (collection.get? other).getD gap := by
  rcases setAt_ok stored with ⟨within, rfl⟩ | ⟨beyond, -, rfl⟩
  · by_cases same : other = position
    · subst same
      simp [get?, List.getElem?_set_self within]
    · simp [get?, same, List.getElem?_set_ne (Ne.symm same)]
  · exact getD_padded collection.items gap value beyond other

/-- A position that may be written can be stored at. -/
theorem setAt_isOk (gap : α) (collection : Collection α) (position : Nat) (value : α)
    (reached : collection.size ≤ position → checkGrowth position = .ok ()) :
    ∃ written, collection.setAt gap position value = .ok written := by
  rw [setAt]
  by_cases within : position < collection.size
  · rw [if_pos within]
    exact ⟨_, rfl⟩
  · rw [if_neg within, reached (by omega)]
    exact ⟨_, rfl⟩

end Collection

/-- What an index selects in a collection. -/
inductive Selector where
  | key (name : String)
  | position (place : Nat)
  deriving DecidableEq, Repr

namespace Selector

/-- The element that is selected; nothing reads as null. -/
def of (collection : Collection Value) : Selector → Value
  | .key name => (collection.getKey? name).getD .null
  | .position place => (collection.get? place).getD .null

/-- A collection with an element in the place that is selected. -/
def put (collection : Collection Value) (element : Value) : Selector → Result (Collection Value)
  | .key name => .ok (collection.insertKey name element)
  | .position place => collection.setAt .null place element

/-- Two keys or two positions that differ. -/
inductive Apart : Selector → Selector → Prop where
  | keys {name other : String} (differ : name ≠ other) : Apart (.key name) (.key other)
  | positions {place other : Nat} (differ : place ≠ other) : Apart (.position place) (.position other)

variable {collection written : Collection Value} {chosen other : Selector} {element : Value}

/-- An element is read where it was put. -/
theorem of_put_self (inStep : collection.InStep) (stored : chosen.put collection element = .ok written) :
    chosen.of written = element := by
  cases chosen with
  | key name =>
    cases stored
    simp [of, inStep.getKey_insertKey]
  | position place => simp [of, Collection.getD_setAt stored]

/-- Other elements of its kind read as before. -/
theorem of_put_apart (inStep : collection.InStep) (stored : chosen.put collection element = .ok written)
    (apart : chosen.Apart other) : other.of written = other.of collection := by
  cases apart with
  | keys differ =>
    cases stored
    simp [of, inStep.getKey_insertKey, differ.symm]
  | positions differ => simp [of, Collection.getD_setAt stored, differ.symm]

end Selector

namespace Value

/-- What a value selects as an index. -/
def selector (index : Value) : Result Selector :=
  match index.key? with
  | some name => .ok (.key name)
  | none => index.toIndex.map .position

/-- The value at a path of indices below a value. -/
def indexAll (value : Value) : List Value → Result Value
  | [] => .ok value
  | index :: rest => do (← value.index index).indexAll rest

/-- Two paths whose first different indices select different elements. -/
inductive Diverge : List Value → List Value → Prop where
  | here {index other : Value} {chosen another : Selector} {rest more : List Value}
      (chosenHere : index.selector = .ok chosen) (chosenThere : other.selector = .ok another)
      (apart : chosen.Apart another) : Diverge (index :: rest) (other :: more)
  | deeper {index other : Value} {rest more : List Value} (same : index.selector = other.selector)
      (diverge : Diverge rest more) : Diverge (index :: rest) (other :: more)

/-- All collections that can be reached by indices are in step. -/
inductive Kept : Value → Prop where
  | leaf {value : Value} (plain : value.asCollection? = none) : Kept value
  | node {value : Value} {collection : Collection Value}
      (data : value.asCollection? = some collection) (inStep : collection.InStep)
      (items : ∀ item ∈ collection.items, Kept item) : Kept value

variable {value index content : Value} {collection : Collection Value}

/-- What is selected in a collection is null or one of its elements. -/
theorem Kept.of (items : ∀ item ∈ collection.items, item.Kept) (chosen : Selector) :
    (chosen.of collection).Kept := by
  -- A position out of range selects null, which is a leaf.
  have fromPosition : ∀ place, ((collection.get? place).getD null).Kept := by
    intro place
    cases found : collection.get? place with
    | none => exact .leaf rfl
    | some item => exact items item (List.mem_of_getElem? found)
  cases chosen with
  | position place => exact fromPosition place
  | key name =>
    rw [Selector.of, Collection.getKey?]
    cases collection.position? name with
    | none => exact .leaf rfl
    | some place => exact fromPosition place

/-- A collection is read at what the index selects. -/
theorem index_collection (data : value.asCollection? = some collection) (index : Value) :
    value.index index = index.selector.map (·.of collection) := by
  obtain ⟨stored, fields, computed⟩ := value
  have data : stored = .collection collection := by
    unfold asCollection? at data
    split at data
    · rename_i same
      cases data
      exact same
    · cases data
  subst data
  unfold Value.index selector key?
  cases index.data with
  | string name => rfl
  | _ => cases index.toIndex <;> rfl

/-- What an index leads to below a value that is written. -/
def reach (value index : Value) : Result (Collection Value × Selector) :=
  match value.indexed index with
  | .error failure => .error failure
  | .ok collection =>
    match index.key? with
    | some name => .ok (collection, .key name)
    | none => (writablePosition collection index).map fun place => (collection, .position place)

/-- The check goes on with what the index leads to. -/
theorem checkIndexed_cons (value index : Value) (rest : List Value) :
    value.checkIndexed (index :: rest) =
      match value.reach index with
      | .error failure => .error failure
      | .ok (collection, chosen) => (chosen.of collection).checkIndexed rest := by
  rw [checkIndexed, reach]
  -- Both spellings look for a key first and for a position otherwise.
  cases value.indexed index with
  | error failure => rfl
  | ok collection =>
    cases index.key? with
    | some name => rfl
    | none =>
      cases reached : writablePosition collection index <;>
        simp [Bind.bind, Except.bind, Except.map, Selector.of, reached]

/-- The write puts what it made of the selected element back in its place. -/
theorem setIndexed_cons (value content index : Value) (rest : List Value) :
    value.setIndexed content (index :: rest) =
      match value.reach index with
      | .error failure => (value.indexable index, .error failure)
      | .ok (collection, chosen) =>
        match chosen.put collection ((chosen.of collection).setIndexed content rest).1 with
        | .error failure => (value.indexable index, .error failure)
        | .ok written => ((value.indexable index).withData (.collection written),
            ((chosen.of collection).setIndexed content rest).2) := by
  rw [setIndexed, reach]
  cases value.indexed index with
  | error failure => rfl
  -- Both sides look at the collection first, and then at the kind of the index.
  | ok collection =>
    cases index.key? with
    | some name => rfl
    | none =>
      dsimp only
      cases writablePosition collection index <;> rfl

/-- A position to write at is that of the index, and the collection reaches it or may grow so far. -/
theorem writablePosition_ok {place : Nat} (writable : writablePosition collection index = .ok place) :
    index.toIndex = .ok place ∧
      (collection.size ≤ place → Collection.checkGrowth place = .ok ()) := by
  obtain ⟨found, position, rest⟩ := ok_of_bind writable
  -- Only a position behind the end is checked for growth.
  by_cases beyond : collection.size ≤ found
  · rw [if_pos beyond] at rest
    obtain ⟨⟨⟩, allowed, rest⟩ := ok_of_bind rest
    cases rest
    exact ⟨position, fun _ => allowed⟩
  · rw [if_neg beyond] at rest
    cases rest
    exact ⟨position, fun reached => absurd reached beyond⟩

/-- An index leads to the collection that is written below and to what it selects there, which is in
reach. -/
theorem reach_ok {chosen : Selector} (reached : value.reach index = .ok (collection, chosen)) :
    value.indexed index = .ok collection ∧ index.selector = .ok chosen ∧
      ∀ place, chosen = .position place → collection.size ≤ place →
        Collection.checkGrowth place = .ok () := by
  rw [reach] at reached
  cases indexed : value.indexed index with
  | error failure => simp [indexed] at reached
  | ok found =>
    -- A key needs no room, and a position has been checked to be in reach.
    cases key : index.key? with
    | some name =>
      simp only [indexed, key, Except.ok.injEq, Prod.mk.injEq] at reached
      obtain ⟨rfl, rfl⟩ := reached
      exact ⟨rfl, by rw [selector, key], fun place => by simp⟩
    | none =>
      cases writable : writablePosition found index with
      | error failure => simp [indexed, key, writable, Except.map] at reached
      | ok place =>
        simp only [indexed, key, writable, Except.map, Except.ok.injEq, Prod.mk.injEq] at reached
        obtain ⟨rfl, rfl⟩ := reached
        obtain ⟨position, allowed⟩ := writablePosition_ok writable
        refine ⟨rfl, ?_, ?_⟩
        · rw [selector, key, position]
          rfl
        · intro other same
          cases same
          exact allowed

/-- Whatever an index leads to can be replaced. -/
theorem put_of_reach {chosen : Selector} (reached : value.reach index = .ok (collection, chosen))
    (element : Value) : ∃ written, chosen.put collection element = .ok written := by
  cases chosen with
  | key name => exact ⟨_, rfl⟩
  | position place =>
    exact Collection.setAt_isOk .null collection place element ((reach_ok reached).2.2 place rfl)

/-- The check fails just where the write does, and for the same reason. -/
theorem setIndexed_outcome (value content : Value) (indices : List Value) :
    (value.setIndexed content indices).2 = value.checkIndexed indices := by
  -- The induction is on the path, the value being the one that the step before leads to.
  induction indices generalizing value with
  | nil => rfl
  | cons index rest ih =>
    rw [setIndexed_cons, checkIndexed_cons]
    cases reached : value.reach index with
    | error failure => rfl
    | ok found =>
      obtain ⟨collection, chosen⟩ := found
      obtain ⟨written, stored⟩ := put_of_reach reached
        ((chosen.of collection).setIndexed content rest).1
      simp only [stored]
      exact ih (chosen.of collection)

/-- A write whose path is checked before is carried out as a whole, or changes nothing. -/
theorem writeIndexed_cases (value content : Value) (indices : List Value) :
    (∃ failure, value.checkIndexed indices = .error failure ∧
        value.writeIndexed content indices = (value, .error failure)) ∨
      ((value.setIndexed content indices).2 = .ok () ∧
        value.writeIndexed content indices = ((value.setIndexed content indices).1, .ok ())) := by
  have agree := value.setIndexed_outcome content indices
  unfold writeIndexed
  -- The write could leave a half-changed value only where the check has failed before.
  cases checked : value.checkIndexed indices with
  | error failure => exact .inl ⟨failure, rfl, rfl⟩
  | ok _ =>
    rw [checked] at agree
    exact .inr ⟨agree, Prod.ext rfl agree⟩

/-- Below null a new collection is written, and otherwise the one that is there. -/
theorem indexed_cases (found : value.indexed index = .ok collection) :
    value.asCollection? = some collection ∨
      (value.isNothing = true ∧ (collection = .emptyMap ∨ collection = .ofItems [])) := by
  rw [indexed, indexable] at found
  by_cases nothing : value.isNothing
  · rw [if_pos nothing] at found
    by_cases named : index.isString
    · rw [if_pos named] at found
      cases found
      exact .inr ⟨nothing, .inl rfl⟩
    · rw [if_neg named] at found
      cases found
      exact .inr ⟨nothing, .inr rfl⟩
  · -- What is not nothing must be a collection already.
    rw [if_neg nothing] at found
    split at found
    case h_1 data =>
      cases found
      exact .inl data
    case h_2 => cases found

/-- What is written below a kept value is in step, and its elements are kept. -/
theorem Kept.indexed (kept : value.Kept) (found : value.indexed index = .ok collection) :
    collection.InStep ∧ ∀ item ∈ collection.items, item.Kept := by
  rcases indexed_cases found with data | ⟨-, rfl | rfl⟩
  · cases kept with
    | leaf plain => simp [plain] at data
    | node stored inStep items =>
      rw [stored] at data
      cases data
      exact ⟨inStep, items⟩
  · -- The new collections hold no elements.
    exact ⟨(Collection.Origin.holds .map).inStep, by simp [Collection.emptyMap]⟩
  · exact ⟨(Collection.Origin.holds (.array [])).inStep, by simp [Collection.ofItems]⟩

/-- Nothing is read below null. -/
theorem index_nothing (nothing : value.isNothing = true) (index : Value) :
    ∃ failure, value.index index = .error failure := by
  obtain ⟨data, fields, computed⟩ := value
  cases data <;> simp [isNothing] at nothing <;> exact ⟨_, rfl⟩

/-- A write below a value goes through what the index leads to there. -/
theorem setIndexed_ok {rest : List Value}
    (written : (value.setIndexed content (index :: rest)).2 = .ok ()) :
    ∃ collection chosen changed, value.indexed index = .ok collection ∧
      index.selector = .ok chosen ∧ ((chosen.of collection).setIndexed content rest).2 = .ok () ∧
      chosen.put collection ((chosen.of collection).setIndexed content rest).1 = .ok changed ∧
      (value.setIndexed content (index :: rest)).1.asCollection? = some changed := by
  rw [setIndexed_cons] at written ⊢
  cases reached : value.reach index with
  | error failure => simp [reached] at written
  | ok found =>
    obtain ⟨collection, chosen⟩ := found
    -- What was reached tells the collection and the selector, and that the element can be put back.
    obtain ⟨indexed, selects, -⟩ := reach_ok reached
    obtain ⟨changed, stored⟩ := put_of_reach reached
      ((chosen.of collection).setIndexed content rest).1
    simp only [reached, stored] at written ⊢
    exact ⟨collection, chosen, changed, indexed, selects, written, stored, rfl⟩

/-- What is written at a path is read there. -/
theorem indexAll_setIndexed {indices : List Value} (kept : value.Kept)
    (written : (value.setIndexed content indices).2 = .ok ()) :
    (value.setIndexed content indices).1.indexAll indices = .ok content := by
  -- The induction is on the path; each step reads the element that the step of the write has put.
  induction indices generalizing value with
  | nil => rfl
  | cons index rest ih =>
    obtain ⟨collection, chosen, changed, indexed, selects, below, stored, data⟩ :=
      setIndexed_ok written
    obtain ⟨inStep, items⟩ := kept.indexed indexed
    rw [indexAll, index_collection data, selects]
    show (chosen.of changed).indexAll rest = .ok content
    rw [chosen.of_put_self inStep stored]
    exact ih (Kept.of items chosen) below

/-- What is read at a path that leads elsewhere is read there behind a write as well. -/
theorem Diverge.indexAll_setIndexed {indices path : List Value} (diverge : Diverge indices path)
    (kept : value.Kept) (written : (value.setIndexed content indices).2 = .ok ()) {found : Value}
    (read : value.indexAll path = .ok found) :
    (value.setIndexed content indices).1.indexAll path = .ok found := by
  -- The induction follows the two paths up to the step at which they part.
  induction diverge generalizing value with
  | here chosenHere chosenThere apart =>
    obtain ⟨collection, chosen, changed, indexed, selects, -, stored, data⟩ := setIndexed_ok written
    obtain ⟨inStep, -⟩ := kept.indexed indexed
    obtain rfl : _ = chosen := by simpa [chosenHere] using selects
    rcases indexed_cases indexed with old | ⟨nothing, -⟩
    · rw [Value.indexAll, index_collection old, chosenThere] at read
      rw [Value.indexAll, index_collection data, chosenThere]
      show (Selector.of changed _).indexAll _ = _
      rw [Selector.of_put_apart inStep stored apart]
      exact read
    · -- Nothing was read where there was no collection yet.
      obtain ⟨failure, refused⟩ := index_nothing nothing _
      rw [Value.indexAll, refused] at read
      cases read
  | deeper same diverge ih =>
    obtain ⟨collection, chosen, changed, indexed, selects, below, stored, data⟩ := setIndexed_ok written
    obtain ⟨inStep, items⟩ := kept.indexed indexed
    rw [selects] at same
    rcases indexed_cases indexed with old | ⟨nothing, -⟩
    · rw [Value.indexAll, index_collection old, ← same] at read
      rw [Value.indexAll, index_collection data, ← same]
      show (chosen.of changed).indexAll _ = _
      rw [chosen.of_put_self inStep stored]
      exact ih (Kept.of items chosen) below read
    · obtain ⟨failure, refused⟩ := index_nothing nothing _
      rw [Value.indexAll, refused] at read
      cases read

end Value

end ScriptEngine

import Mathlib.Data.List.InsertIdx
import ScriptEngine.Proofs.Collection.Entries

/-! The changes of a collection, one by one and in sequence: each does to the collection what it does
to the list of its entries, so that the recorded positions stay in step with the elements. -/

namespace ScriptEngine.Collection

variable {α : Type} {collection : Collection α} {held : List (Entry α)}

/-! The positions of keys after an element came in or went out. -/

/-- An element without a key that comes in moves the positions up from its place on. -/
theorem positionsFrom_insertIdx (keys : List (Option String)) (first place : Nat) :
    positionsFrom first (keys.insertIdx place none) = (positionsFrom first keys).map
      fun (key, recorded) => (key, if first + place ≤ recorded then recorded + 1 else recorded) := by
  induction keys generalizing first place with
  | nil => cases place <;> rfl
  | cons key rest ih =>
    cases place with
    | zero =>
      -- All positions are behind the new element.
      rw [List.insertIdx_zero, positionsFrom, positionsFrom_succ]
      refine List.map_congr_left fun entry member => ?_
      have behind : first + 0 ≤ entry.2 := (positionsFrom_bounds member).1
      simp only [if_pos behind]
    | succ place =>
      have later := ih (first + 1) place
      have shift : first + 1 + place = first + (place + 1) := by omega
      rw [shift] at later
      rw [List.insertIdx_succ_cons]
      cases key with
      | none => exact later
      | some key =>
        have before : ¬ first + (place + 1) ≤ first := by omega
        simp [positionsFrom, later, before]

/-- An element that goes out takes its key with it and moves the positions behind it down. -/
theorem positionsFrom_eraseIdx (keys : List (Option String)) (first place : Nat) :
    positionsFrom first (keys.eraseIdx place) =
      ((positionsFrom first keys).filter fun (_, recorded) => recorded != first + place).map
        fun (key, recorded) => (key, if first + place < recorded then recorded - 1 else recorded) := by
  -- The keys are gone through up to the element.
  induction keys generalizing first place with
  | nil => rfl
  | cons key rest ih =>
    cases place with
    | zero =>
      -- The positions of the others are behind the element, and none of them is dropped.
      have others : (positionsFrom (first + 1) rest).filter (fun (_, recorded) => recorded != first) =
          positionsFrom (first + 1) rest := by
        rw [List.filter_eq_self]
        intro entry member
        have bounds := positionsFrom_bounds member
        simp only [bne_iff_ne]
        omega
      have down : (positionsFrom (first + 1) rest).map (fun (key, recorded) =>
          (key, if first < recorded then recorded - 1 else recorded)) = positionsFrom first rest := by
        rw [positionsFrom_succ, List.map_map]
        refine (List.map_congr_left fun entry member => ?_).trans (List.map_id _)
        have bounds := positionsFrom_bounds member
        have behind : first < entry.2 + 1 := by omega
        simp [behind]
      cases key <;> simp [positionsFrom, others, down]
    | succ place =>
      have later := ih (first + 1) place
      have shift : first + 1 + place = first + (place + 1) := by omega
      rw [shift] at later
      rw [List.eraseIdx_cons_succ]
      cases key with
      -- An element without a key records nothing, so that only the later ones count.
      | none => exact later
      | some key =>
        have before : ¬ first + (place + 1) < first := by omega
        simp [positionsFrom, later, before]

/-! What each change does to the entries of a collection. -/

namespace Entries

/-- The entries with a value under a key: in the entry of the key, or in a new last one. -/
def insertKey (held : List (Entry α)) (key : String) (value : α) : List (Entry α) :=
  if held.any (·.1 == some key) then
    held.map fun entry => if entry.1 == some key then (entry.1, value) else entry
  else held ++ [(some key, value)]

/-- The entries with a value at a position, and with entries without a key at every position that
did not exist before. -/
def setAt (gap : α) (held : List (Entry α)) (position : Nat) (value : α) :
    Result (List (Entry α)) :=
  if position < held.length then .ok (held.modify position fun entry => (entry.1, value))
  else if position < maxLength then
    .ok (held ++ (List.replicate (position - held.length) (none, gap) ++ [(none, value)]))
  else fail (.typeMismatch (.indexBelow maxLength) (toString position))

/-- The entries with one without a key in front of a position, or behind all others. -/
def insertAt (held : List (Entry α)) (position : Nat) (value : α) : List (Entry α) :=
  held.take position ++ (none, value) :: held.drop position

/-- An entry in front of a position beyond the end is one behind all others. -/
theorem insertAt_eq_insertIdx (held : List (Entry α)) (position : Nat) (value : α) :
    insertAt held position value = held.insertIdx (min position held.length) (none, value) := by
  -- The entries are gone through up to the position.
  induction held generalizing position with
  | nil => cases position <;> rfl
  | cons entry rest ih =>
    cases position with
    | zero => rfl
    | succ position =>
      have fewer : min (position + 1) (rest.length + 1) = min position rest.length + 1 := by omega
      rw [List.length_cons, fewer, List.insertIdx_succ_cons, ← ih position]
      rfl

end Entries

/-! A value that is replaced in place. -/

/-- The values with one of them replaced. -/
theorem modify_values (held : List (Entry α)) (place : Nat) (value : α) :
    (held.modify place fun entry => (entry.1, value)).map (·.2) =
      (held.map (·.2)).set place value := by
  induction held generalizing place with
  | nil => cases place <;> rfl
  | cons entry rest ih => cases place <;> simp [ih]

/-- A value that is replaced leaves the keys as they are. -/
theorem modify_keys (held : List (Entry α)) (place : Nat) (value : α) :
    (held.modify place fun entry => (entry.1, value)).map (·.1) = held.map (·.1) := by
  induction held generalizing place with
  | nil => cases place <;> rfl
  | cons entry rest ih => cases place <;> simp [ih]

/-- Where keys are distinct, the entry of a key is the first one that has it. -/
theorem modify_key {held : List (Entry α)} (distinct : (held.filterMap (·.1)).Nodup) {key : String}
    {place : Nat} (found : held.findIdx? (·.1 == some key) = some place) (value : α) :
    (held.map fun entry => if entry.1 == some key then (entry.1, value) else entry) =
      held.modify place fun entry => (entry.1, value) := by
  induction held generalizing place with
  | nil => simp at found
  | cons entry rest ih =>
    have distinctRest : (rest.filterMap (·.1)).Nodup :=
      distinct.sublist ((List.sublist_cons_self entry rest).filterMap _)
    by_cases here : entry.1 = some key
    · -- None of the entries behind it has the key once more.
      have others : rest.map (fun entry => if entry.1 == some key then (entry.1, value) else entry) =
          rest := by
        refine (List.map_congr_left fun other member => ?_).trans (List.map_id _)
        have absent : other.1 ≠ some key := by
          intro again
          rw [List.filterMap_cons_some here] at distinct
          exact (List.nodup_cons.mp distinct).1 (List.mem_filterMap.mpr ⟨other, member, again⟩)
        simp [absent]
      obtain rfl : 0 = place := by simpa [List.findIdx?_cons, here] using found
      simp only [List.map_cons, here, beq_self_eq_true, if_true, others, List.modify_zero_cons]
    · obtain ⟨behind, foundBehind, rfl⟩ : ∃ behind,
          rest.findIdx? (·.1 == some key) = some behind ∧ behind + 1 = place := by
        simpa [List.findIdx?_cons, here] using found
      have differs : (entry.1 == some key) = false := by simpa using here
      simp only [List.map_cons, differs, Bool.false_eq_true, if_false, ih distinctRest foundBehind,
        List.modify_succ_cons]

/-- A change of a collection has the outcome of one of entries. -/
def Follows : Result (Collection α) → Result (List (Entry α)) → Prop
  | .ok collection, .ok held => collection.Holds held
  | .error failure, .error expected => failure = expected
  | _, _ => False

namespace Holds

variable (holds : collection.Holds held)
include holds

/-- A value that is replaced is replaced in its entry. -/
theorem replace (place : Nat) (value : α) :
    { collection with items := collection.items.set place value : Collection α }.Holds
      (held.modify place fun entry => (entry.1, value)) where
  items := by rw [modify_values, ← holds.items]
  index := by rw [modify_keys]; exact holds.index
  distinct := by
    -- The keys are as before, since only a value is replaced.
    have keys := congrArg (List.filterMap id) (modify_keys held place value)
    simp only [List.filterMap_map, Function.id_comp] at keys
    rw [keys]
    exact holds.distinct

/-- Elements without keys that are appended are entries without keys. -/
theorem append (values : List α) :
    { collection with items := collection.items ++ values : Collection α }.Holds
      (held ++ values.map fun value => (none, value)) where
  items := by simp [holds.items, Function.comp_def]
  index := by
    -- What is appended has no keys, and so it records no positions.
    have unkeyed : (values.map fun value : α => ((none : Option String), value)).map (·.1) =
        List.replicate values.length none := by simp [Function.comp_def, List.map_const']
    rw [List.map_append, positionsFrom_append, unkeyed, positionsFrom_replicate, List.append_nil]
    exact holds.index
  distinct := by
    have unkeyed : (values.map fun value => (none, value)).filterMap (·.1 : Entry α → Option String) = [] := by
      simp
    rw [List.filterMap_append, unkeyed, List.append_nil]
    exact holds.distinct

/-- A new last element has no key. -/
theorem push (value : α) : (collection.push value).Holds (held ++ [(none, value)]) :=
  holds.append [value]

/-- A value is stored in the entry of its key, or in a new last one. -/
theorem insertKey (key : String) (value : α) :
    (collection.insertKey key value).Holds (Entries.insertKey held key value) := by
  rw [Collection.insertKey, Entries.insertKey, ← List.findIdx?_isSome, holds.position]
  cases found : held.findIdx? (·.1 == some key) with
  | some place =>
    simp only [Option.isSome_some, if_true]
    rw [modify_key holds.distinct found]
    exact holds.replace place value
  | none =>
    -- The new key is none of those that are there.
    have absent : ∀ entry ∈ held, entry.1 ≠ some key := by
      simpa [List.findIdx?_eq_none_iff] using found
    simp only [Option.isSome_none, Bool.false_eq_true, if_false]
    refine ⟨by simp [holds.items], ?_, ?_⟩
    · show collection.keyIndex ++ [(key, collection.size)] = _
      rw [List.map_append, positionsFrom_append, holds.index, holds.size]
      simp [positionsFrom]
    · simp only [List.filterMap_append, List.filterMap_cons, List.filterMap_nil]
      refine List.nodup_append.mpr ⟨holds.distinct, by simp, ?_⟩
      intro other member last isLast same
      obtain ⟨entry, isHeld, named⟩ := List.mem_filterMap.mp member
      rw [List.mem_singleton.mp isLast] at same
      exact absent entry isHeld (same ▸ named)

/-- An index write replaces an entry or appends entries without keys, or is refused. -/
theorem setAt (gap : α) (position : Nat) (value : α) :
    Follows (collection.setAt gap position value) (Entries.setAt gap held position value) := by
  rw [Collection.setAt, Entries.setAt, holds.size, checkGrowth]
  -- Within the entries the value is replaced; behind them the gap is filled, if it may be.
  by_cases within : position < held.length
  · simp only [if_pos within]
    exact holds.replace position value
  · simp only [if_neg within]
    by_cases allowed : position < maxLength
    · simp only [if_pos allowed]
      show Collection.Holds _ _
      simpa using holds.append (List.replicate (position - held.length) gap ++ [value])
    · simp only [if_neg allowed]
      rfl

/-- An element that is inserted is an entry without a key. -/
theorem insertAt (position : Nat) (value : α) :
    (collection.insertAt position value).Holds (Entries.insertAt held position value) := by
  have within : min position held.length ≤ held.length := Nat.min_le_right _ _
  rw [Entries.insertAt_eq_insertIdx]
  refine ⟨?_, ?_, ?_⟩
  · simp [Collection.insertAt, holds.size, holds.items, List.map_insertIdx]
  · show (collection.index.map _).getD [] = _
    rw [List.map_insertIdx, positionsFrom_insertIdx, ← holds.index, holds.size]
    cases stored : collection.index <;> simp [keyIndex, stored]
  · -- The keys have only been moved, so that they are still distinct.
    have reordered := (List.perm_insertIdx (none, value) held within).filterMap (·.1)
    exact reordered.nodup_iff.mpr (by simpa using holds.distinct)

/-- An element that is removed takes its entry along. -/
theorem removeAt (position : Nat) :
    (collection.removeAt position).Holds (held.eraseIdx position) := by
  rw [Collection.removeAt, holds.size]
  by_cases within : position < held.length
  · rw [if_pos within]
    refine ⟨?_, ?_, ?_⟩
    · simp [holds.items, List.eraseIdx_map]
    · show (collection.index.map _).getD [] = _
      -- The positions are those that are left without the element.
      have erased := positionsFrom_eraseIdx (held.map (·.1)) 0 position
      rw [← List.eraseIdx_map, erased, ← holds.index]
      cases stored : collection.index <;> simp [keyIndex, stored]
    · exact holds.distinct.sublist ((List.eraseIdx_sublist held position).filterMap _)
  · rw [if_neg within, List.eraseIdx_of_length_le (Nat.le_of_not_lt within)]
    exact holds

/-- A key that is removed takes its entry along. -/
theorem removeKey (key : String) :
    (collection.removeKey key).Holds (held.eraseP (·.1 == some key)) := by
  rw [Collection.removeKey, holds.position, List.eraseP_eq_eraseIdx]
  cases held.findIdx? (·.1 == some key) with
  | none => exact holds
  | some position => exact holds.removeAt position

omit holds in
/-- Nothing is held where everything was removed. -/
theorem clear (collection : Collection α) : collection.clear.Holds [] where
  items := rfl
  index := by cases stored : collection.index <;> simp [Collection.clear, keyIndex, stored, positionsFrom]
  distinct := .nil

end Holds

/-- A change of a collection. -/
inductive Edit (α : Type) where
  | push (value : α)
  | insertKey (key : String) (value : α)
  /-- What is stored under a key is changed, which is the gap for a new key. -/
  | changeKey (key : String) (change : α → α)
  /-- What stands at a position is changed, which is the gap where nothing stood. -/
  | changeAt (position : Nat) (change : α → α)
  | insertAt (position : Nat) (value : α)
  | removeAt (position : Nat)
  | removeKey (key : String)
  | clear

namespace Edit

/-- What a change makes of a collection, or why it is refused. -/
def apply (gap : α) (collection : Collection α) : Edit α → Result (Collection α)
  | push value => .ok (collection.push value)
  | insertKey key value => .ok (collection.insertKey key value)
  | changeKey key change =>
    .ok (collection.insertKey key (change ((collection.getKey? key).getD gap)))
  | changeAt position change =>
    collection.setAt gap position (change ((collection.get? position).getD gap))
  | insertAt position value => .ok (collection.insertAt position value)
  | removeAt position => .ok (collection.removeAt position)
  | removeKey key => .ok (collection.removeKey key)
  | clear => .ok collection.clear

/-- What a change makes of a list of entries, or why it is refused. -/
def applyEntries (gap : α) (held : List (Entry α)) : Edit α → Result (List (Entry α))
  | push value => .ok (held ++ [(none, value)])
  | insertKey key value => .ok (Entries.insertKey held key value)
  | changeKey key change =>
    let stored := (held.find? (·.1 == some key)).map (·.2)
    .ok (Entries.insertKey held key (change (stored.getD gap)))
  | changeAt position change =>
    let stored := (held[position]?).map (·.2)
    Entries.setAt gap held position (change (stored.getD gap))
  | insertAt position value => .ok (Entries.insertAt held position value)
  | removeAt position => .ok (held.eraseIdx position)
  | removeKey key => .ok (held.eraseP (·.1 == some key))
  | clear => .ok []

/-- A collection after changes, each of which leaves it as it is where it is refused. -/
def run (gap : α) (collection : Collection α) (edits : List (Edit α)) : Collection α :=
  edits.foldl (fun collection edit => (edit.apply gap collection).toOption.getD collection) collection

/-- A list of entries after changes, each of which leaves it as it is where it is refused. -/
def runEntries (gap : α) (held : List (Entry α)) (edits : List (Edit α)) : List (Entry α) :=
  edits.foldl (fun held edit => (edit.applyEntries gap held).toOption.getD held) held

end Edit

/-- A change does to a collection what it does to the entries that this holds. -/
theorem Holds.apply (holds : collection.Holds held) (gap : α) (edit : Edit α) :
    Follows (edit.apply gap collection) (edit.applyEntries gap held) := by
  -- A change at a key or a place is a write of what it makes of what is there.
  cases edit with
  | push value => exact holds.push value
  | insertKey key value => exact holds.insertKey key value
  | changeKey key change =>
    rw [Edit.apply, Edit.applyEntries, holds.lists.getKey]
    exact holds.insertKey key _
  | changeAt position change =>
    rw [Edit.apply, Edit.applyEntries, holds.lists.get]
    exact holds.setAt gap position _
  | insertAt position value => exact holds.insertAt position value
  | removeAt position => exact holds.removeAt position
  | removeKey key => exact holds.removeKey key
  | clear => exact clear collection

/-- Changes in sequence do to a collection what they do to the entries that this holds. -/
theorem Holds.run (holds : collection.Holds held) (gap : α) (edits : List (Edit α)) :
    (Edit.run gap collection edits).Holds (Edit.runEntries gap held edits) := by
  induction edits generalizing collection held with
  | nil => exact holds
  | cons edit rest ih =>
    refine ih ?_
    have step := holds.apply gap edit
    -- A change that is refused for the one is refused for the other.
    cases outcome : edit.apply gap collection <;> cases expected : edit.applyEntries gap held <;>
      simp only [outcome, expected] at step ⊢
    · exact holds
    · exact step.elim
    · exact step.elim
    · exact step

/-- What a collection starts as. -/
inductive Origin (α : Type) where
  | array (items : List α)
  | map

namespace Origin

/-- The collection at the start. -/
def start : Origin α → Collection α
  | array items => ofItems items
  | map => emptyMap

/-- The entries at the start. -/
def entries : Origin α → List (Entry α)
  | array items => items.map fun value => (none, value)
  | map => []

/-- A collection starts with its entries. -/
theorem holds (origin : Origin α) : origin.start.Holds origin.entries := by
  cases origin with
  | map => exact ⟨rfl, rfl, .nil⟩
  | array items =>
    have empty : Holds (ofItems ([] : List α)) [] := ⟨rfl, rfl, .nil⟩
    exact empty.append items

end Origin

/-- Whatever changes are made to a collection, the recorded positions ascend in the order of the keys
and lie within the elements, and it reads like the list of entries on which the changes were made,
which refuses the same ones. -/
theorem changed_as_entries (gap : α) (origin : Origin α) (edits : List (Edit α)) :
    let final := Edit.run gap origin.start edits
    let held := Edit.runEntries gap origin.entries edits
    final.InStep ∧ final.Lists held ∧
      ∀ (edit : Edit α) (failure : Failure), edit.apply gap final = .error failure ↔
        edit.applyEntries gap held = .error failure := by
  intro final held
  have holds : final.Holds held := origin.holds.run gap edits
  refine ⟨holds.inStep, holds.lists, fun edit failure => ?_⟩
  have step := holds.apply gap edit
  cases outcome : edit.apply gap final <;> cases expected : edit.applyEntries gap held <;>
    simp_all [Follows]

/-- A key that moves up stays behind the keys in front of it, and a new one comes last. -/
example : (Edit.run 0 (Origin.start .map)
    [.insertKey "a" 1, .insertKey "b" 2, .insertAt 1 5, .removeKey "a", .changeAt 3 (· + 7),
      .insertKey "a" 3]).keyIndex = [("b", 1), ("a", 4)] := by
  decide

end ScriptEngine.Collection

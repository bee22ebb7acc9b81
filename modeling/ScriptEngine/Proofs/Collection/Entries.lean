import ScriptEngine.Collection

/-! Collections as lists of entries, each an element with the key that is recorded for it: what is
read from a collection is read from its entries, and each change of a collection is one of the list. -/

namespace ScriptEngine.Collection

/-- An element with the key that is recorded for it, if there is one. -/
abbrev Entry (α : Type) : Type := Option String × α

variable {α : Type} {collection : Collection α} {held : List (Entry α)} {first : Nat}
  {keys : List (Option String)}

/-- The positions of the keys of successive elements, the first of which is at `first`. -/
def positionsFrom : Nat → List (Option String) → List (String × Nat)
  | _, [] => []
  | first, none :: rest => positionsFrom (first + 1) rest
  | first, some key :: rest => (key, first) :: positionsFrom (first + 1) rest

/-- The recorded positions are in ascending order and lie within the elements, and no key is recorded
twice. -/
structure InStep (collection : Collection α) : Prop where
  ascending : collection.keyIndex.Pairwise fun earlier later => earlier.2 < later.2
  bounded : ∀ entry ∈ collection.keyIndex, entry.2 < collection.size
  distinct : collection.keys.Nodup

/-- A collection holds just the given entries, which have distinct keys. -/
structure Holds (collection : Collection α) (entries : List (Entry α)) : Prop where
  items : collection.items = entries.map (·.2)
  index : collection.keyIndex = positionsFrom 0 (entries.map (·.1))
  distinct : (entries.filterMap (·.1)).Nodup

/-- The entries of a collection as they are read off it. -/
def entries (collection : Collection α) : List (Entry α) :=
  collection.items.mapIdx fun position value => (collection.keyOf? position, value)

/-- What is read from a collection is read from a list of entries. -/
structure Lists (collection : Collection α) (entries : List (Entry α)) : Prop where
  distinct : (entries.filterMap (·.1)).Nodup
  size : collection.size = entries.length
  get : ∀ position, collection.get? position = (entries[position]?).map (·.2)
  getKey : ∀ key, collection.getKey? key = (entries.find? (·.1 == some key)).map (·.2)
  keyOf : ∀ position, collection.keyOf? position = (entries[position]?).bind (·.1)
  keys : collection.keys = entries.filterMap (·.1)
  containsKey : ∀ key, collection.containsKey key = entries.any (·.1 == some key)

/-! The positions of a list of keys. -/

/-- The positions of two lists of keys, one behind the other. -/
theorem positionsFrom_append (keys more : List (Option String)) (first : Nat) :
    positionsFrom first (keys ++ more) =
      positionsFrom first keys ++ positionsFrom (first + keys.length) more := by
  induction keys generalizing first with
  | nil => rfl
  | cons key rest ih =>
    have shift : first + 1 + rest.length = first + (rest.length + 1) := by omega
    cases key <;> simp [positionsFrom, ih, shift]

/-- Elements without keys have no positions. -/
theorem positionsFrom_replicate (count first : Nat) :
    positionsFrom first (List.replicate count none) = [] := by
  induction count generalizing first with
  | zero => rfl
  | succ count ih => simpa [List.replicate_succ, positionsFrom] using ih (first + 1)

/-- All positions lie within the list. -/
theorem positionsFrom_bounds {entry : String × Nat} (member : entry ∈ positionsFrom first keys) :
    first ≤ entry.2 ∧ entry.2 < first + keys.length := by
  induction keys generalizing first with
  | nil => simp [positionsFrom] at member
  | cons key rest ih =>
    simp only [List.length_cons]
    cases key with
    | none =>
      have later := ih (by simpa [positionsFrom] using member)
      omega
    | some key =>
      -- The first position is that of the first key.
      rcases List.mem_cons.mp (by simpa [positionsFrom] using member) with rfl | later
      · simp
      · have := ih later
        omega

/-- The positions are in ascending order. -/
theorem positionsFrom_ascending (first : Nat) (keys : List (Option String)) :
    (positionsFrom first keys).Pairwise fun earlier later => earlier.2 < later.2 := by
  -- The positions grow with the keys that are gone through.
  induction keys generalizing first with
  | nil => exact .nil
  | cons key rest ih =>
    cases key with
    | none => exact ih (first + 1)
    | some key =>
      refine .cons (fun entry member => ?_) (ih (first + 1))
      have := positionsFrom_bounds member
      show first < entry.2
      omega

/-- The keys that have positions are those of the list in order. -/
theorem positionsFrom_keys (first : Nat) (keys : List (Option String)) :
    (positionsFrom first keys).map (·.1) = keys.filterMap id := by
  induction keys generalizing first with
  | nil => rfl
  | cons key rest ih => cases key <;> simp [positionsFrom, ih]

/-- A later start moves all positions up. -/
theorem positionsFrom_succ (first : Nat) (keys : List (Option String)) :
    positionsFrom (first + 1) keys = (positionsFrom first keys).map fun (key, at_) => (key, at_ + 1) := by
  induction keys generalizing first with
  | nil => rfl
  | cons key rest ih => cases key <;> simp [positionsFrom, ih]

/-- The key at a position is that of the list. -/
theorem positionsFrom_find (keys : List (Option String)) (first offset : Nat) :
    ((positionsFrom first keys).find? fun entry => entry.2 == first + offset).map (·.1) =
      (keys[offset]?).bind id := by
  induction keys generalizing first offset with
  | nil => rfl
  | cons key rest ih =>
    cases offset with
    | zero =>
      cases key with
      | some key => simp [positionsFrom]
      | none =>
        -- All positions lie behind that of the first element, which has no key.
        have absent : (positionsFrom (first + 1) rest).find? (fun entry => entry.2 == first) = none := by
          rw [List.find?_eq_none]
          intro entry member
          have := positionsFrom_bounds member
          simp only [beq_iff_eq]
          omega
        simpa [positionsFrom] using absent
    | succ offset =>
      have later := ih (first + 1) offset
      have shift : first + 1 + offset = first + (offset + 1) := by omega
      rw [shift] at later
      have passed : (first == first + (offset + 1)) = false := by simp
      cases key with
      | some key => simpa [positionsFrom, List.find?_cons, passed] using later
      | none => simpa [positionsFrom] using later

/-- A key is looked up at the first place where it stands. -/
theorem positionsFrom_lookup (keys : List (Option String)) (first : Nat) (key : String) :
    (positionsFrom first keys).lookup key =
      (keys.findIdx? (· == some key)).map (first + ·) := by
  -- The keys are gone through up to the first one that is the same.
  induction keys generalizing first with
  | nil => rfl
  | cons here rest ih =>
    have later := ih (first + 1)
    have shift : (fun offset => first + 1 + offset) = fun offset => first + (offset + 1) := by
      funext offset
      omega
    rw [shift] at later
    cases here with
    | none => simpa [positionsFrom, List.findIdx?_cons, Function.comp_def] using later
    | some other =>
      by_cases same : other = key
      · simp [positionsFrom, List.findIdx?_cons, same]
      · have differs : (key == other) = false := beq_false_of_ne (Ne.symm same)
        simpa [positionsFrom, List.findIdx?_cons, List.lookup_cons, differs, same,
          Function.comp_def] using later

/-! What is read from a collection that holds a list of entries. -/

namespace Holds

variable (holds : collection.Holds held)
include holds

/-- The number of elements. -/
theorem size : collection.size = held.length := by
  simp [Collection.size, holds.items]

/-- The position of a key is that of the entry with the key. -/
theorem position (key : String) :
    collection.position? key = held.findIdx? (·.1 == some key) := by
  have found := positionsFrom_lookup (held.map (·.1)) 0 key
  rw [← holds.index, List.findIdx?_map] at found
  simpa [position?, Function.comp_def] using found

/-- A collection that holds entries reads like their list. -/
theorem lists : collection.Lists held where
  distinct := holds.distinct
  size := holds.size
  get position := by simp [get?, holds.items]
  getKey key := by
    -- The entry that is found first stands where its key is found first.
    rw [getKey?, holds.position, List.find?_eq_bind_findIdx?_getElem?]
    cases held.findIdx? (·.1 == some key) with
    | none => rfl
    | some position => simp [get?, holds.items]
  keyOf position := by
    have found := positionsFrom_find (held.map (·.1)) 0 position
    rw [← holds.index, Nat.zero_add] at found
    rw [keyOf?]
    refine found.trans ?_
    cases held : held[position]? <;> simp [held]
  keys := by
    simp only [Collection.keys, holds.index, positionsFrom_keys, List.filterMap_map]
    rfl
  containsKey key := by
    rw [Collection.containsKey, holds.position]
    exact List.findIdx?_isSome

/-- A collection that holds entries is in step. -/
theorem inStep : collection.InStep where
  ascending := holds.index ▸ positionsFrom_ascending _ _
  bounded entry member := by
    rw [holds.index] at member
    have := positionsFrom_bounds member
    rw [holds.size]
    simpa using this.2
  distinct := holds.lists.keys ▸ holds.distinct

end Holds

/-- The key that is recorded for a position. -/
def keyAt? (index : List (String × Nat)) (position : Nat) : Option String :=
  (index.find? fun entry => entry.2 == position).map (·.1)

/-- No key is recorded for a position in front of all that are recorded. -/
theorem keyAt?_of_later {index : List (String × Nat)} {position : Nat}
    (later : ∀ entry ∈ index, position < entry.2) : keyAt? index position = none := by
  have absent : index.find? (fun entry => entry.2 == position) = none := by
    rw [List.find?_eq_none]
    intro entry member
    have := later entry member
    simp only [beq_iff_eq]
    omega
  rw [keyAt?, absent, Option.map_none]

/-- Behind its own position an entry is not found any more. -/
theorem keyAt?_cons_of_lt {entry : String × Nat} {position : Nat} (passed : entry.2 < position)
    (rest : List (String × Nat)) : keyAt? (entry :: rest) position = keyAt? rest position := by
  have other : (entry.2 == position) = false := by simp; omega
  simp [keyAt?, other]

/-- The positions that are recorded in ascending order within a run of elements are those of the keys
that are found for these. -/
theorem positionsFrom_keyOf {index : List (String × Nat)}
    (ascending : index.Pairwise fun earlier later => earlier.2 < later.2) :
    ∀ {first count : Nat}, (∀ entry ∈ index, first ≤ entry.2 ∧ entry.2 < first + count) →
      positionsFrom first ((List.range' first count).map (keyAt? index)) = index := by
  intro first count
  -- The run is gone through from its start, and each entry is taken off where its position comes.
  induction count generalizing first index with
  | zero =>
    intro within
    cases index with
    | nil => rfl
    | cons entry rest =>
      have := within entry List.mem_cons_self
      omega
  | succ count ih =>
    intro within
    rw [List.range'_succ, List.map_cons]
    by_cases later : ∀ entry ∈ index, first < entry.2
    · -- Nothing is recorded for the first element.
      rw [keyAt?_of_later later]
      refine ih ascending fun entry member => ?_
      have := within entry member
      have := later entry member
      omega
    · cases index with
      | nil => exact absurd nofun later
      | cons entry rest =>
        obtain ⟨key, position⟩ := entry
        obtain ⟨after, ascendingRest⟩ := List.pairwise_cons.mp ascending
        -- What is recorded for the first element comes first.
        obtain rfl : position = first := by
          have start := (within (key, position) List.mem_cons_self).1
          refine Nat.le_antisymm (Nat.not_lt.mp fun beyond => later fun entry member => ?_) start
          rcases List.mem_cons.mp member with rfl | behind
          · exact beyond
          · exact Nat.lt_trans beyond (after entry behind)
        have found : keyAt? ((key, position) :: rest) position = some key := by simp [keyAt?]
        have others : (List.range' (position + 1) count).map (keyAt? ((key, position) :: rest)) =
            (List.range' (position + 1) count).map (keyAt? rest) :=
          List.map_congr_left fun other member =>
            keyAt?_cons_of_lt (List.mem_range'_1.mp member).1 rest
        rw [found, others, positionsFrom, ih ascendingRest]
        intro entry member
        have bound := within entry (List.mem_cons_of_mem _ member)
        have order := after entry member
        simp only at order
        omega

/-- A collection that is in step holds the entries that are read off it. -/
theorem InStep.holds (inStep : collection.InStep) : collection.Holds collection.entries := by
  -- The keys are those that the index has for the positions from the first to the last.
  have keys : collection.entries.map (·.1) =
      (List.range' 0 collection.size).map collection.keyOf? := by
    apply List.ext_getElem
    · simp [entries, Collection.size]
    · intro position within _
      simp [entries]
  have index : collection.keyIndex = positionsFrom 0 (collection.entries.map (·.1)) := by
    rw [keys]
    refine (positionsFrom_keyOf inStep.ascending fun entry member => ?_).symm
    have := inStep.bounded entry member
    omega
  refine ⟨?_, index, ?_⟩
  · apply List.ext_getElem
    · simp [entries]
    · intro position within _
      simp [entries]
  · have distinct := inStep.distinct
    rw [Collection.keys, index, positionsFrom_keys, List.filterMap_map] at distinct
    exact distinct

end ScriptEngine.Collection

import Mathlib.Data.List.Pairwise
import ScriptEngine.Proofs.Value.Path

/-! Writes below a value whose paths part at two positions: they come out the same in any order. -/

namespace ScriptEngine

namespace Collection

variable {α : Type} {gap value : α} {collection written left right : Collection α} {position : Nat}

/-- A collection reaches just far enough for the position that was written. -/
theorem setAt_size (stored : collection.setAt gap position value = .ok written) :
    written.size = max collection.size (position + 1) := by
  rcases setAt_ok stored with ⟨within, rfl⟩ | ⟨beyond, -, rfl⟩
  · simp only [size, List.length_set] at within ⊢
    omega
  · simp only [size, List.length_append, List.length_replicate, List.length_singleton] at beyond ⊢
    omega

/-- A write at a position records no key. -/
theorem setAt_index (stored : collection.setAt gap position value = .ok written) :
    written.index = collection.index := by
  rcases setAt_ok stored with ⟨-, rfl⟩ | ⟨-, -, rfl⟩ <;> rfl

/-- A position that was written is one that a collection may reach. -/
theorem checkGrowth_of_setAt (stored : collection.setAt gap position value = .ok written)
    (beyond : collection.size ≤ position) : checkGrowth position = .ok () := by
  rcases setAt_ok stored with ⟨within, -⟩ | ⟨-, allowed, -⟩
  · exact absurd within (Nat.not_lt.mpr beyond)
  · exact allowed

/-- A smaller position may be reached as well. -/
theorem checkGrowth_of_le {other : Nat} (allowed : checkGrowth position = .ok ())
    (smaller : other ≤ position) : checkGrowth other = .ok () := by
  unfold checkGrowth at allowed ⊢
  split at allowed
  case isTrue within => rw [if_pos (by omega)]
  case isFalse => cases allowed

/-- Collections with the same keys and the same length are the same if they read the same. -/
theorem eq_of_getD (gap : α) (index : left.index = right.index) (size : left.size = right.size)
    (elements : ∀ place, (left.get? place).getD gap = (right.get? place).getD gap) :
    left = right := by
  obtain ⟨items, recorded⟩ := left
  obtain ⟨others, _⟩ := right
  obtain rfl := index
  have same : items = others := by
    refine List.ext_getElem size fun place within also => ?_
    simpa [get?, within, also] using elements place
  rw [same]

/-- Of two writes at one position the last one counts. -/
theorem setAt_setAt (stored : collection.setAt gap position value = .ok written) (other : α) :
    written.setAt gap position other = collection.setAt gap position other := by
  have room : ∀ beyond : collection.size ≤ position, checkGrowth position = .ok () :=
    checkGrowth_of_setAt stored
  obtain ⟨directly, direct⟩ := setAt_isOk gap collection position other room
  obtain ⟨behind, again⟩ := setAt_isOk gap written position other fun beyond =>
    room (Nat.le_trans (by rw [setAt_size stored]; omega) beyond)
  rw [direct, again]
  congr 1
  -- Collections are the same if they have the same index, the same size and the same elements.
  refine eq_of_getD gap ?_ ?_ fun place => ?_
  · rw [setAt_index again, setAt_index stored, setAt_index direct]
  · rw [setAt_size again, setAt_size stored, setAt_size direct]
    omega
  · rw [getD_setAt again, getD_setAt direct, getD_setAt stored]
    split <;> rfl

/-- Writes at two positions come out the same in either order. -/
theorem setAt_comm {place : Nat} {other : α} {first second both : Collection α}
    (apart : place ≠ position) (one : collection.setAt gap position value = .ok first)
    (onTop : first.setAt gap place other = .ok both)
    (another : collection.setAt gap place other = .ok second) :
    second.setAt gap position value = .ok both := by
  obtain ⟨swapped, stored⟩ := setAt_isOk gap second position value fun beyond =>
    checkGrowth_of_setAt one (Nat.le_trans (by rw [setAt_size another]; omega) beyond)
  rw [stored]
  congr 1
  refine eq_of_getD gap ?_ ?_ fun here => ?_
  · rw [setAt_index stored, setAt_index another, setAt_index onTop, setAt_index one]
  · rw [setAt_size stored, setAt_size another, setAt_size onTop, setAt_size one]
    omega
  · rw [getD_setAt stored, getD_setAt another, getD_setAt onTop, getD_setAt one]
    by_cases atFirst : here = position
    · rw [if_pos atFirst, if_pos atFirst, if_neg (by omega)]
    · rw [if_neg atFirst, if_neg atFirst]

/-- Of two writes under one key the last one counts. -/
theorem insertKey_insertKey (collection : Collection α) (key : String) (value other : α) :
    (collection.insertKey key value).insertKey key other = collection.insertKey key other := by
  -- The key has a place from the first write on.
  cases found : collection.position? key with
  | some place =>
    have again : Collection.position? (⟨collection.items.set place value, collection.index⟩ :
        Collection α) key = some place := found
    simp [insertKey, found, again]
  | none =>
    have again : Collection.position? (⟨collection.items ++ [value],
        some (collection.keyIndex ++ [(key, collection.size)])⟩ : Collection α) key =
          some collection.size := by
      simp only [position?, keyIndex, Option.getD_some] at found ⊢
      rw [List.lookup_append, found]
      simp
    simp only [insertKey, found, again]
    simp [size]

/-- A write at a position keeps the recorded keys in step. -/
theorem InStep.setAt (inStep : collection.InStep)
    (stored : collection.setAt gap position value = .ok written) : written.InStep := by
  have sameKeys : written.keyIndex = collection.keyIndex := by
    rw [keyIndex, keyIndex, setAt_index stored]
  refine ⟨sameKeys ▸ inStep.ascending, fun entry recorded => ?_, ?_⟩
  · have bound := inStep.bounded entry (sameKeys ▸ recorded)
    rw [setAt_size stored]
    omega
  · rw [keys, sameKeys]
    exact inStep.distinct

/-- What a collection has behind a write at a position was there, was written or is the gap. -/
theorem mem_setAt {item : α} (stored : collection.setAt gap position value = .ok written)
    (member : item ∈ written.items) : item ∈ collection.items ∨ item = value ∨ item = gap := by
  rcases setAt_ok stored with ⟨-, rfl⟩ | ⟨-, -, rfl⟩
  · rcases List.mem_or_eq_of_mem_set member with old | new
    · exact .inl old
    · exact .inr (.inl new)
  · simp only [List.mem_append, List.mem_replicate, List.mem_singleton] at member
    rcases member with old | ⟨-, filled⟩ | new
    · exact .inl old
    · exact .inr (.inr filled)
    · exact .inr (.inl new)

/-- What a collection has behind a write under a key was there or was written. -/
theorem mem_insertKey {item : α} {key : String}
    (member : item ∈ (collection.insertKey key value).items) :
    item ∈ collection.items ∨ item = value := by
  unfold insertKey at member
  split at member
  · exact List.mem_or_eq_of_mem_set member
  · simpa using member

end Collection

namespace Selector

variable {collection written : Collection Value} {chosen : Selector} {element : Value}

/-- Whether what is selected has a key. -/
def isKey : Selector → Bool
  | .key _ => true
  | .position _ => false

/-- Of two elements that are put in one place the last one counts. -/
theorem put_put (stored : chosen.put collection element = .ok written) (other : Value) :
    chosen.put written other = chosen.put collection other := by
  cases chosen with
  | key name =>
    cases stored
    exact congrArg _ (collection.insertKey_insertKey name element other)
  | position place => exact Collection.setAt_setAt stored other

/-- A collection gets no shorter. -/
theorem size_le_put (stored : chosen.put collection element = .ok written) :
    collection.size ≤ written.size := by
  -- A key takes a new place or none, and a position may take several.
  cases chosen with
  | key name =>
    cases stored
    unfold Collection.insertKey
    split <;> simp [Collection.size]
  | position place =>
    rw [Collection.setAt_size stored]
    omega

/-- A collection of kept elements stays one if a kept element is put in it. -/
theorem put_kept (stored : chosen.put collection element = .ok written) (inStep : collection.InStep)
    (items : ∀ item ∈ collection.items, item.Kept) (kept : element.Kept) :
    written.InStep ∧ ∀ item ∈ written.items, item.Kept := by
  cases chosen with
  | key name =>
    cases stored
    refine ⟨(inStep.holds.insertKey name element).inStep, fun item member => ?_⟩
    rcases Collection.mem_insertKey member with old | rfl
    · exact items item old
    · exact kept
  | position place =>
    refine ⟨inStep.setAt stored, fun item member => ?_⟩
    rcases Collection.mem_setAt stored member with old | rfl | rfl
    · exact items item old
    · exact kept
    · exact .leaf rfl

end Selector

namespace Value

variable {value content other index another : Value} {collection written : Collection Value}
  {chosen : Selector} {rest path : List Value}

/-- An index selects by key just if it is a string. -/
theorem isString_of_selector (selects : index.selector = .ok chosen) :
    index.isString = chosen.isKey := by
  unfold selector at selects
  -- What is no key is a position or selects nothing.
  cases key : index.key? with
  | some name =>
    obtain rfl : Selector.key name = chosen := by simpa [key] using selects
    unfold key? at key
    split at key <;> simp_all [isString, Selector.isKey]
  | none =>
    have byPosition : ∃ place, chosen = .position place := by
      cases place : index.toIndex with
      | error failure => simp [key, place, Except.map] at selects
      | ok position => exact ⟨position, by simpa [key, place, Except.map, eq_comm] using selects⟩
    obtain ⟨place, rfl⟩ := byPosition
    unfold key? at key
    split at key <;> simp_all [isString, Selector.isKey]

/-- What a value becomes to be written below depends on the kind of the index alone. -/
theorem indexable_congr (value : Value) {elsewhere : Selector} (selects : index.selector = .ok chosen)
    (alike : another.selector = .ok elsewhere) (same : chosen.isKey = elsewhere.isKey) :
    value.indexable index = value.indexable another ∧ value.indexed index = value.indexed another := by
  have sameBase : value.indexable index = value.indexable another := by
    unfold indexable
    rw [isString_of_selector selects, isString_of_selector alike, same]
  exact ⟨sameBase, by rw [indexed, indexed, sameBase]⟩

/-- A collection is written below as it is. -/
theorem indexable_collection (data : value.asCollection? = some collection) (index : Value) :
    value.indexable index = value := by
  have present : value.isNothing = false := by
    unfold asCollection? at data
    split at data
    · rename_i stored
      simp [isNothing, stored]
    · cases data
  simp [indexable, present]

/-- An index leads to the collection that is written below and to what it selects there, if that is in
reach. -/
theorem reach_of_indexed (indexed : value.indexed index = .ok collection)
    (selects : index.selector = .ok chosen)
    (room : ∀ place, chosen = .position place → collection.size ≤ place →
      Collection.checkGrowth place = .ok ()) : value.reach index = .ok (collection, chosen) := by
  rw [reach, indexed]
  -- The selector of the index is that of the reach, which checks the growth as well.
  unfold selector at selects
  cases key : index.key? with
  | some name =>
    obtain rfl : Selector.key name = chosen := by simpa [key] using selects
    rfl
  | none =>
    cases position : index.toIndex with
    | error failure => simp [key, position, Except.map] at selects
    | ok place =>
      obtain rfl : Selector.position place = chosen := by
        simpa [key, position, Except.map] using selects
      have writable : writablePosition collection index = .ok place := by
        rw [writablePosition, position]
        by_cases beyond : collection.size ≤ place
        · simp [Bind.bind, Except.bind, beyond, room place rfl beyond, Pure.pure, Except.pure]
        · simp [Bind.bind, Except.bind, beyond, Pure.pure, Except.pure]
      simp only [writable]
      rfl

/-- A collection is written below itself. -/
theorem indexed_collection (data : value.asCollection? = some collection) (index : Value) :
    value.indexed index = .ok collection := by
  rw [indexed, indexable_collection data, data]

/-- A write that succeeds below a value puts what it made of the selected element back in place. -/
theorem setIndexed_through (succeeds : (value.setIndexed content (index :: rest)).2 = .ok ()) :
    ∃ collection chosen written, value.reach index = .ok (collection, chosen) ∧
      ((chosen.of collection).setIndexed content rest).2 = .ok () ∧
      chosen.put collection ((chosen.of collection).setIndexed content rest).1 = .ok written ∧
      value.setIndexed content (index :: rest) =
        ((value.indexable index).withData (.collection written), .ok ()) := by
  rw [setIndexed_cons] at succeeds ⊢
  cases reached : value.reach index with
  | error failure => simp [reached] at succeeds
  | ok found =>
    obtain ⟨collection, chosen⟩ := found
    obtain ⟨written, stored⟩ := put_of_reach reached
      ((chosen.of collection).setIndexed content rest).1
    simp only [reached, stored] at succeeds ⊢
    exact ⟨collection, chosen, written, rfl, succeeds, stored, by rw [succeeds]⟩

/-- A write below a value whose index leads on and whose rest succeeds. -/
theorem setIndexed_of_reach (reached : value.reach index = .ok (collection, chosen))
    (succeeds : ((chosen.of collection).setIndexed content rest).2 = .ok ())
    (stored : chosen.put collection ((chosen.of collection).setIndexed content rest).1 =
      .ok written) : value.setIndexed content (index :: rest) =
        ((value.indexable index).withData (.collection written), .ok ()) := by
  simp only [setIndexed_cons, reached, stored, succeeds]

/-- A write through a collection that succeeds. -/
theorem setIndexed_data_ok {base : Value} (selects : index.selector = .ok chosen)
    (succeeds : ((base.withData (.collection collection)).setIndexed content (index :: rest)).2 =
      .ok ()) :
    ∃ written, (∀ place, chosen = .position place → collection.size ≤ place →
        Collection.checkGrowth place = .ok ()) ∧
      ((chosen.of collection).setIndexed content rest).2 = .ok () ∧
      chosen.put collection ((chosen.of collection).setIndexed content rest).1 = .ok written ∧
      (base.withData (.collection collection)).setIndexed content (index :: rest) =
        (base.withData (.collection written), .ok ()) := by
  obtain ⟨through, found, written, reached, below, stored, result⟩ := setIndexed_through succeeds
  obtain ⟨indexed, selected, room⟩ := reach_ok reached
  obtain rfl : collection = through := Except.ok.inj ((indexed_collection rfl index).symm.trans indexed)
  obtain rfl : chosen = found := Except.ok.inj (selects.symm.trans selected)
  rw [indexable_collection rfl] at result
  exact ⟨written, room, below, stored, result⟩

/-- A write through a collection whose place is in reach and whose rest succeeds. -/
theorem setIndexed_data {base : Value} (selects : index.selector = .ok chosen)
    (room : ∀ place, chosen = .position place → collection.size ≤ place →
      Collection.checkGrowth place = .ok ())
    (succeeds : ((chosen.of collection).setIndexed content rest).2 = .ok ())
    (stored : chosen.put collection ((chosen.of collection).setIndexed content rest).1 =
      .ok written) :
    (base.withData (.collection collection)).setIndexed content (index :: rest) =
      (base.withData (.collection written), .ok ()) := by
  have reached : (base.withData (.collection collection)).reach index = .ok (collection, chosen) :=
    reach_of_indexed (indexed_collection rfl index) selects room
  rw [setIndexed_of_reach reached succeeds stored, indexable_collection rfl]
  rfl

/-- A kept value stays kept if a kept one is written below it. -/
theorem Kept.setIndexed (kept : value.Kept) (keptContent : content.Kept)
    (succeeds : (value.setIndexed content path).2 = .ok ()) :
    (value.setIndexed content path).1.Kept := by
  -- The induction is on the path; each step puts a kept element into a kept collection.
  induction path generalizing value with
  | nil => exact keptContent
  | cons index rest ih =>
    obtain ⟨collection, chosen, written, reached, below, stored, result⟩ :=
      setIndexed_through succeeds
    obtain ⟨inStep, items⟩ := kept.indexed (reach_ok reached).1
    obtain ⟨inStepNow, itemsNow⟩ :=
      Selector.put_kept stored inStep items (ih (Kept.of items chosen) below)
    rw [result]
    exact .node rfl inStepNow itemsNow

/-- Two paths whose first different indices select different positions. -/
inductive Part : List Value → List Value → Prop where
  | here {index other : Value} {place elsewhere : Nat} {rest more : List Value}
      (chosenHere : index.selector = .ok (.position place))
      (chosenThere : other.selector = .ok (.position elsewhere))
      (differ : place ≠ elsewhere) : Part (index :: rest) (other :: more)
  | deeper {index other : Value} {rest more : List Value} (same : index.selector = other.selector)
      (part : Part rest more) : Part (index :: rest) (other :: more)

namespace Part

variable {path elsewhere : List Value}

theorem symm (part : Part path elsewhere) : Part elsewhere path := by
  induction part with
  | here chosenHere chosenThere differ => exact .here chosenThere chosenHere differ.symm
  | deeper same _ ih => exact .deeper same.symm ih

/-- Two writes at positions beside each other in one collection can change places. -/
theorem setIndexed_comm_here {index another : Value} {place beside : Nat} {rest more : List Value}
    (chosenHere : index.selector = .ok (.position place))
    (chosenThere : another.selector = .ok (.position beside)) (differ : place ≠ beside)
    (kept : value.Kept) (first : (value.setIndexed content (index :: rest)).2 = .ok ())
    (second : ((value.setIndexed content (index :: rest)).1.setIndexed other (another :: more)).2 =
      .ok ()) :
    (value.setIndexed other (another :: more)).2 = .ok () ∧
      (value.setIndexed other (another :: more)).1.setIndexed content (index :: rest) =
        (value.setIndexed content (index :: rest)).1.setIndexed other (another :: more) := by
  obtain ⟨collection, chosen, one, reached, below, stored, result⟩ := setIndexed_through first
  obtain ⟨indexed, selects, room⟩ := reach_ok reached
  obtain rfl : .position place = chosen := Except.ok.inj (chosenHere.symm.trans selects)
  obtain ⟨inStep, -⟩ := kept.indexed indexed
  rw [result] at second ⊢
  obtain ⟨both, roomNow, belowNow, storedNow, resultNow⟩ := setIndexed_data_ok chosenThere second
  rw [Selector.of_put_apart inStep stored (.positions differ)] at belowNow storedNow
  -- The second write is in reach without the first: what the first made room for is before it.
  have roomAlone : ∀ position, Selector.position beside = .position position →
      collection.size ≤ position → Collection.checkGrowth position = .ok () := by
    rintro position ⟨⟩ beyond
    rcases Nat.lt_or_ge beside one.size with before | after
    · rw [Collection.setAt_size stored] at before
      have smaller : beside ≤ place := by omega
      have allowed := Collection.checkGrowth_of_setAt stored (Nat.le_trans beyond smaller)
      exact Collection.checkGrowth_of_le allowed smaller
    · exact roomNow beside rfl after
  obtain ⟨sameBase, sameIndexed⟩ := indexable_congr value chosenHere chosenThere rfl
  have reachedAlone := reach_of_indexed (sameIndexed ▸ indexed) chosenThere roomAlone
  obtain ⟨alone, storedAlone⟩ := put_of_reach reachedAlone
    (((Selector.position beside).of collection).setIndexed other more).1
  have resultAlone := setIndexed_of_reach reachedAlone belowNow storedAlone
  refine ⟨by rw [resultAlone], ?_⟩
  rw [resultAlone, resultNow, ← sameBase]
  -- Neither of the two elements is touched by the write of the other one.
  have untouched := Selector.of_put_apart inStep storedAlone (.positions differ.symm)
  refine setIndexed_data chosenHere (fun position same beyond => ?_) ?_ ?_
  · exact room position same (Nat.le_trans (Selector.size_le_put storedAlone) beyond)
  · rw [untouched]
    exact below
  · rw [untouched]
    exact Collection.setAt_comm differ.symm stored storedNow storedAlone

/-- Two writes through one element can change places if they can below it. -/
theorem setIndexed_comm_deeper {index another : Value} {rest more : List Value}
    (same : index.selector = another.selector) (kept : value.Kept)
    (swaps : ∀ {element : Value}, element.Kept → (element.setIndexed content rest).2 = .ok () →
      ((element.setIndexed content rest).1.setIndexed other more).2 = .ok () →
      (element.setIndexed other more).2 = .ok () ∧
        (element.setIndexed other more).1.setIndexed content rest =
          (element.setIndexed content rest).1.setIndexed other more)
    (first : (value.setIndexed content (index :: rest)).2 = .ok ())
    (second : ((value.setIndexed content (index :: rest)).1.setIndexed other (another :: more)).2 =
      .ok ()) :
    (value.setIndexed other (another :: more)).2 = .ok () ∧
      (value.setIndexed other (another :: more)).1.setIndexed content (index :: rest) =
        (value.setIndexed content (index :: rest)).1.setIndexed other (another :: more) := by
  obtain ⟨collection, chosen, one, reached, below, stored, result⟩ := setIndexed_through first
  obtain ⟨indexed, selects, room⟩ := reach_ok reached
  have selectsThere : another.selector = .ok chosen := same ▸ selects
  obtain ⟨inStep, items⟩ := kept.indexed indexed
  rw [result] at second ⊢
  obtain ⟨both, -, belowNow, storedNow, resultNow⟩ := setIndexed_data_ok selectsThere second
  rw [chosen.of_put_self inStep stored] at belowNow storedNow
  rw [Selector.put_put stored] at storedNow
  obtain ⟨belowAlone, swapped⟩ := swaps (Kept.of items chosen) below belowNow
  obtain ⟨sameBase, sameIndexed⟩ := indexable_congr value selects selectsThere rfl
  have reachedAlone := reach_of_indexed (sameIndexed ▸ indexed) selectsThere room
  obtain ⟨alone, storedAlone⟩ := put_of_reach reachedAlone
    ((chosen.of collection).setIndexed other more).1
  have resultAlone := setIndexed_of_reach reachedAlone belowAlone storedAlone
  refine ⟨by rw [resultAlone], ?_⟩
  rw [resultAlone, resultNow, ← sameBase]
  -- Both writes go through the same element, in which they have been swapped.
  refine setIndexed_data selects (fun position same beyond => ?_) ?_ ?_
  · exact room position same (Nat.le_trans (Selector.size_le_put storedAlone) beyond)
  · rw [chosen.of_put_self inStep storedAlone, swapped]
    exact belowNow
  · rw [chosen.of_put_self inStep storedAlone, swapped, Selector.put_put storedAlone]
    exact storedNow

/-- Two writes that succeed in one order succeed in the other one, and come out the same. -/
theorem setIndexed_comm (part : Part path elsewhere) (kept : value.Kept)
    (first : (value.setIndexed content path).2 = .ok ())
    (second : ((value.setIndexed content path).1.setIndexed other elsewhere).2 = .ok ()) :
    (value.setIndexed other elsewhere).2 = .ok () ∧
      (value.setIndexed other elsewhere).1.setIndexed content path =
        (value.setIndexed content path).1.setIndexed other elsewhere := by
  -- The induction follows the two paths up to the step at which they part.
  induction part generalizing value with
  | here chosenHere chosenThere differ =>
    exact setIndexed_comm_here chosenHere chosenThere differ kept first second
  | deeper same _ ih => exact setIndexed_comm_deeper same kept ih first second

end Part

/-- Contents are written at their paths one after the other, as long as that succeeds. -/
def writeAll? (value : Value) : List (List Value × Value) → Option Value
  | [] => some value
  | (path, content) :: rest =>
    match value.setIndexed content path with
    | (changed, .ok ()) => changed.writeAll? rest
    | (_, .error _) => none

variable {final : Value} {writes order : List (List Value × Value)}

theorem writeAll_cons : value.writeAll? ((path, content) :: writes) = some final ↔
    (value.setIndexed content path).2 = .ok () ∧
      (value.setIndexed content path).1.writeAll? writes = some final := by
  rw [writeAll?]
  split
  next changed result => simp [result]
  next failure result => simp [result]

theorem writeAll_append : value.writeAll? (writes ++ order) = some final ↔
    ∃ between, value.writeAll? writes = some between ∧ between.writeAll? order = some final := by
  -- The writes are gone through one by one.
  induction writes generalizing value with
  | nil => simp [writeAll?]
  | cons write rest ih =>
    obtain ⟨path, content⟩ := write
    simp only [List.cons_append, writeAll_cons, ih]
    constructor
    · rintro ⟨here, between, before, behind⟩
      exact ⟨between, ⟨here, before⟩, behind⟩
    · rintro ⟨between, ⟨here, before⟩, behind⟩
      exact ⟨here, between, before, behind⟩

/-- Kept contents leave a kept value. -/
theorem Kept.writeAll (kept : value.Kept) (contents : ∀ write ∈ writes, write.2.Kept)
    (written : value.writeAll? writes = some final) : final.Kept := by
  induction writes generalizing value with
  | nil =>
    cases written
    exact kept
  | cons write rest ih =>
    obtain ⟨here, behind⟩ := writeAll_cons.mp written
    exact ih (kept.setIndexed (contents _ List.mem_cons_self) here)
      (fun other member => contents other (List.mem_cons_of_mem _ member)) behind

/-- Writes whose paths part at two positions come out the same in any order. -/
theorem writeAll_perm (reordered : writes.Perm order)
    (apart : writes.Pairwise fun write other => Part write.1 other.1) (kept : value.Kept)
    (contents : ∀ write ∈ writes, write.2.Kept) (written : value.writeAll? writes = some final) :
    value.writeAll? order = some final := by
  -- The induction takes the reordering apart into swaps of two neighbours.
  induction reordered generalizing value with
  | nil => exact written
  | cons write same ih =>
    obtain ⟨here, behind⟩ := writeAll_cons.mp written
    refine writeAll_cons.mpr ⟨here, ih (List.pairwise_cons.mp apart).2 ?_ ?_ behind⟩
    · exact kept.setIndexed (contents _ List.mem_cons_self) here
    · exact fun other member => contents other (List.mem_cons_of_mem _ member)
  | swap second first rest =>
    obtain ⟨here, behind⟩ := writeAll_cons.mp written
    obtain ⟨next, others⟩ := writeAll_cons.mp behind
    have part := (List.pairwise_cons.mp apart).1 _ List.mem_cons_self
    obtain ⟨alone, swapped⟩ := part.setIndexed_comm kept here next
    refine writeAll_cons.mpr ⟨alone, writeAll_cons.mpr ?_⟩
    rw [swapped]
    exact ⟨next, others⟩
  | trans same _ ihSame ihBehind =>
    refine ihBehind ?_ kept ?_ (ihSame apart kept contents written)
    · exact (same.pairwise_iff Part.symm).mp apart
    · exact fun write member => contents write (same.mem_iff.mpr member)

/-- What is written at paths that part at two positions is read at each of them. -/
theorem indexAll_writeAll (apart : writes.Pairwise fun write other => Part write.1 other.1)
    (kept : value.Kept) (contents : ∀ write ∈ writes, write.2.Kept)
    (written : value.writeAll? writes = some final) :
    ∀ write ∈ writes, final.indexAll write.1 = .ok write.2 := by
  rintro ⟨path, content⟩ member
  obtain ⟨before, behind, rfl⟩ := List.append_of_mem member
  -- It comes out the same if this write is the last one.
  have last : (before ++ (path, content) :: behind).Perm ((before ++ behind) ++ [(path, content)]) :=
    List.perm_middle.trans (List.perm_append_singleton _ _).symm
  have reordered := writeAll_perm last apart kept contents written
  obtain ⟨between, others, latest⟩ := writeAll_append.mp reordered
  obtain ⟨succeeds, same⟩ := writeAll_cons.mp latest
  have keptBetween : between.Kept := kept.writeAll
    (fun other listed => contents other (last.mem_iff.mpr (List.mem_append_left _ listed))) others
  rw [← Option.some.inj same]
  exact indexAll_setIndexed keptBetween succeeds

end Value

end ScriptEngine

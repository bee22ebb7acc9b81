import Mathlib
import ScriptEngine.Proofs.Fields.Body
import ScriptEngine.Proofs.IndexedWrite

/-! The interpreter while the body of a method runs: the copies that its frame holds of the fields, the
fields of its instance, and what both have to do with what is told of the body. -/

namespace ScriptEngine

/-! Bindings under known names. -/

namespace OrderedMap

variable {α : Type} {bindings other : OrderedMap α} {name : String} {value : α}

/-- A name is listed if it is bound. -/
theorem mem_names_of_get? (bound : bindings.get? name = some value) : name ∈ bindings.names := by
  obtain ⟨before, behind, same, _⟩ := List.lookup_eq_some_iff.mp bound
  simp [names, same]

/-- A listed name is bound. -/
theorem get?_of_mem_names (listed : name ∈ bindings.names) : ∃ value, bindings.get? name = some value := by
  obtain ⟨⟨_, value⟩, member, rfl⟩ := List.mem_map.mp listed
  refine Option.ne_none_iff_exists'.mp fun none => ?_
  have absent := List.lookup_eq_none_iff.mp none _ member
  simp at absent

/-- A name that is not listed is not bound. -/
theorem get?_eq_none (absent : name ∉ bindings.names) : bindings.get? name = none :=
  Option.eq_none_iff_forall_not_mem.mpr fun _ found => absent (mem_names_of_get? found)

/-- A new value for a listed name leaves the names alone. -/
theorem names_insert (listed : name ∈ bindings.names) (value : α) :
    (bindings.insert name value).names = bindings.names := by
  obtain ⟨entries⟩ := bindings
  simp only [names, insert] at listed ⊢
  -- The induction follows the search for the old place.
  induction entries with
  | nil => cases listed
  | cons entry rest ih =>
    obtain ⟨first, old⟩ := entry
    by_cases same : first = name
    · simp [insertEntry, same]
    · have further : name ∈ rest.map (·.1) := by simpa [Ne.symm same] using listed
      simp [insertEntry, same, ih further]

/-- Bindings with the same distinct names are the same if they bind each name to the same value. -/
theorem eq_of_get? (sameNames : bindings.names = other.names) (distinct : bindings.names.Nodup)
    (same : ∀ name ∈ bindings.names, bindings.get? name = other.get? name) : bindings = other := by
  obtain ⟨entries⟩ := bindings
  obtain ⟨others⟩ := other
  simp only [names, get?] at sameNames distinct same
  rw [OrderedMap.mk.injEq]
  -- The induction goes through both lists at once.
  induction entries generalizing others with
  | nil => exact (List.map_eq_nil_iff.mp sameNames.symm).symm
  | cons entry rest ih =>
    obtain ⟨name, value⟩ := entry
    cases others with
    | nil => cases sameNames
    | cons entry others =>
      obtain ⟨otherName, otherValue⟩ := entry
      simp only [List.map_cons, List.cons.injEq] at sameNames
      obtain ⟨rfl, sameNames⟩ := sameNames
      rw [List.map_cons, List.nodup_cons] at distinct
      have first := same name (by simp)
      simp only [List.lookup_cons_self, Option.some.injEq] at first
      rw [first, ih distinct.2 others sameNames fun other member => ?_]
      have apart : (other == name) = false := by
        refine beq_false_of_ne ?_
        rintro rfl
        exact distinct.1 member
      have here := same other (List.mem_cons_of_mem _ member)
      simpa only [List.lookup_cons, apart] using here

section Rows

variable {β : Type} {entries : List (String × α)}

/-- The bindings with a row of others behind them, each value in another shape. -/
def insertAll (bindings : OrderedMap β) (shape : α → β) (entries : List (String × α)) : OrderedMap β :=
  entries.foldl (fun bindings entry => bindings.insert entry.1 (shape entry.2)) bindings

/-- A row of bindings leaves all other names alone. -/
theorem get?_insertAll_of_notMem (bindings : OrderedMap β) (shape : α → β)
    (absent : name ∉ entries.map (·.1)) :
    (bindings.insertAll shape entries).get? name = bindings.get? name := by
  induction entries generalizing bindings with
  | nil => rfl
  | cons entry rest ih =>
    rw [List.map_cons, List.mem_cons, not_or] at absent
    exact (ih _ absent.2).trans (get?_insert_of_ne _ _ absent.1)

/-- Each binding of a row of distinct names is found behind it. -/
theorem get?_insertAll_of_mem (bindings : OrderedMap β) (shape : α → β)
    (distinct : (entries.map (·.1)).Nodup) (member : (name, value) ∈ entries) :
    (bindings.insertAll shape entries).get? name = some (shape value) := by
  induction entries generalizing bindings with
  | nil => cases member
  | cons entry rest ih =>
    rw [List.map_cons, List.nodup_cons] at distinct
    rcases List.mem_cons.mp member with rfl | further
    · exact (get?_insertAll_of_notMem _ shape distinct.1).trans (get?_insert_self _ _ _)
    · exact ih _ distinct.2 further

/-- Of two bindings of one name in a row the last one is found, as in a map of its own. -/
theorem get?_insertAll_of_ofList (bindings : OrderedMap β) (shape : α → β)
    (found : (ofList entries).get? name = some value) :
    (bindings.insertAll shape entries).get? name = some (shape value) := by
  -- The induction takes the last binding away.
  induction entries using List.reverseRecOn with
  | nil => cases found
  | append_singleton rest entry ih =>
    have last : ofList (rest ++ [entry]) = (ofList rest).insert entry.1 entry.2 := by
      simp [ofList]
    have lastToo : bindings.insertAll shape (rest ++ [entry]) =
        (bindings.insertAll shape rest).insert entry.1 (shape entry.2) := by
      simp [insertAll]
    rw [last] at found
    rw [lastToo]
    by_cases same : name = entry.1
    · subst same
      rw [get?_insert_self] at found ⊢
      cases found
      rfl
    · rw [get?_insert_of_ne _ _ same] at found ⊢
      exact ih found

/-- What is bound in a map is listed in the row that it was made of. -/
theorem mem_of_get?_ofList (found : (ofList entries).get? name = some value) :
    name ∈ entries.map (·.1) := by
  by_contra absent
  have none : (ofList entries).get? name = none := get?_insertAll_of_notMem empty id absent
  rw [none] at found
  cases found

end Rows

end OrderedMap

/-! Numbers that compare as they are. -/

/-- Numbers are compared as such. -/
theorem Value.beq_number (x y : Float) : (Value.number x == Value.number y) = (x == y) := by
  show Value.equals _ _ = _
  simp only [number, ofData, equals, Data.equals]

/-- Definite numbers are equal only if they are the same. -/
theorem Value.eq_of_isDefinite {first second : Value} (definite : first.isDefinite = true)
    (definiteToo : second.isDefinite = true) (equal : (first == second) = true) : first = second := by
  unfold isDefinite at definite definiteToo
  split at definite
  case h_2 => cases definite
  case h_1 x =>
    split at definiteToo
    case h_2 => cases definiteToo
    case h_1 y =>
      have numbers : (x == y) = true := (beq_number x y).symm.trans equal
      simp only [Bool.and_eq_true, bne_iff_ne, ne_eq] at definite definiteToo
      -- Apart from the two zeros, equal numbers have the same bits.
      rcases (Float.beq_iff_ne_nan_and_eq.mp numbers).2.2 with rfl | ⟨_, rfl⟩ | ⟨rfl, _⟩
      · rfl
      · exact absurd rfl definiteToo.2
      · exact absurd rfl definite.2

/-- A definite number is equal to itself. -/
theorem Value.beq_self_of_isDefinite {value : Value} (definite : value.isDefinite = true) :
    (value == value) = true := by
  unfold isDefinite at definite
  split at definite
  case h_2 => cases definite
  case h_1 x =>
    rw [Bool.and_eq_true] at definite
    exact (beq_number x x).trans definite.1

/-- A definite number is no signal. -/
theorem Value.isSignal_of_isDefinite {value : Value} (definite : value.isDefinite = true) :
    value.isSignal = false := by
  unfold isDefinite at definite
  split at definite
  case h_2 => cases definite
  case h_1 => rfl

/-! The fields of one instance. -/

/-- The heap with other fields for an instance. -/
def Heap.withFields (heap : Heap) (id : Nat) (fields : OrderedMap Value) : Heap :=
  { heap with instances := heap.instances.modify id fun object => { object with fields } }

namespace Heap

variable {heap : Heap} {id : Nat} {object : Instance}

/-- The fields that were put in place are found there. -/
theorem instances_withFields (found : heap.instances[id]? = some object) (fields : OrderedMap Value) :
    (heap.withFields id fields).instances[id]? = some { object with fields } := by
  simp [withFields, Array.getElem?_modify, found]

/-- Only the last fields that are put in place matter. -/
theorem withFields_withFields (heap : Heap) (id : Nat) (first second : OrderedMap Value) :
    (heap.withFields id first).withFields id second = heap.withFields id second := by
  unfold withFields
  congr 1
  ext place
  · simp
  · simp only [Array.getElem_modify]
    split <;> rfl

/-- The fields that an instance has are in place. -/
theorem withFields_self (found : heap.instances[id]? = some object) :
    heap.withFields id object.fields = heap := by
  obtain ⟨instances, foreign⟩ := heap
  unfold withFields
  congr 1
  -- The instance is replaced by itself.
  ext place bound
  · simp
  · simp only [Array.getElem_modify]
    split
    case isTrue same =>
      subst same
      obtain ⟨_, here⟩ := Array.getElem?_eq_some_iff.mp found
      rw [here]
    case isFalse => rfl

/-- A field is stored among those that are in place. -/
theorem setField_withFields (heap : Heap) (id : Nat) (fields : OrderedMap Value) (name : String)
    (value : Value) :
    (heap.withFields id fields).setField id name value =
      heap.withFields id (fields.insert name value) := by
  unfold setField withFields
  congr 1
  ext place
  · simp
  · simp only [Array.getElem_modify]
    split <;> rfl

end Heap

/-! What is noted. -/

/-- Two interpreters differ at most in what they have noted and in the numbers that new frames get. -/
def Engine.Noted (engine other : Engine) : Prop :=
  ∃ (events : List Event) (signalUses : List Use) (callLog : List CallEvent)
    (milestones : List Milestone) (lastId : Nat),
    other = { engine with
      events, signalUses, callLog, milestones, stack := { engine.stack with lastId } }

namespace Engine.Noted

variable {engine other third : Engine}

/-- An interpreter is like itself. -/
theorem refl (engine : Engine) : engine.Noted engine := ⟨_, _, _, _, _, rfl⟩

/-- What is noted behind something is noted as well. -/
theorem trans (first : engine.Noted other) (second : other.Noted third) : engine.Noted third := by
  obtain ⟨events, uses, log, milestones, lastId, rfl⟩ := first
  obtain ⟨events, uses, log, milestones, lastId, rfl⟩ := second
  exact ⟨_, _, _, _, _, rfl⟩

/-- What a name stands for is not noted. -/
theorem resolve? (noted : engine.Noted other) (name file : String) :
    other.resolve? name file = engine.resolve? name file := by
  obtain ⟨events, uses, log, milestones, lastId, rfl⟩ := noted
  rfl

/-- What is defined is not noted. -/
theorem symbols (noted : engine.Noted other) : other.symbols = engine.symbols := by
  obtain ⟨events, uses, log, milestones, lastId, rfl⟩ := noted
  rfl

/-- What objects hold is not noted. -/
theorem heap (noted : engine.Noted other) : other.heap = engine.heap := by
  obtain ⟨events, uses, log, milestones, lastId, rfl⟩ := noted
  rfl

end Engine.Noted

end ScriptEngine

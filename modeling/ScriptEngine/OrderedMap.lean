/-! Maps that keep the order in which their names were first bound. -/

namespace ScriptEngine

/-- Bindings in order; `insert` never leaves two for one name. -/
structure OrderedMap (α : Type) where
  entries : List (String × α) := []

namespace OrderedMap

variable {α : Type}

/-- The map without bindings. -/
def empty : OrderedMap α := ⟨[]⟩

instance : Inhabited (OrderedMap α) := ⟨empty⟩

/-- The value bound to `name`. -/
def get? (map : OrderedMap α) (name : String) : Option α := map.entries.lookup name

/-- Whether `name` is bound. -/
def contains (map : OrderedMap α) (name : String) : Bool := (map.get? name).isSome

/-- The names in order. -/
def names (map : OrderedMap α) : List String := map.entries.map (·.1)

/-- The values in order. -/
def values (map : OrderedMap α) : List α := map.entries.map (·.2)

/-- The number of bindings. -/
def size (map : OrderedMap α) : Nat := map.entries.length

/-- The entries with `name` bound to `value`: in its old place, or behind all others. -/
def insertEntry (name : String) (value : α) : List (String × α) → List (String × α)
  | [] => [(name, value)]
  | (other, old) :: rest =>
    if other = name then (name, value) :: rest else (other, old) :: insertEntry name value rest

/-- Binds `name` to `value`. A name that is already bound keeps its place. -/
def insert (map : OrderedMap α) (name : String) (value : α) : OrderedMap α :=
  ⟨insertEntry name value map.entries⟩

/-- The map that binds each name of a list to the last value given for it. -/
def ofList (entries : List (String × α)) : OrderedMap α :=
  entries.foldl (fun map (name, value) => map.insert name value) empty

/-- The first name whose value satisfies `p`. -/
def nameWhere? (map : OrderedMap α) (p : α → Bool) : Option String :=
  (map.entries.find? fun (_, value) => p value).map (·.1)

/-- Applies a function to each value. -/
def map {β : Type} (f : α → β) (bindings : OrderedMap α) : OrderedMap β :=
  ⟨bindings.entries.map fun (name, value) => (name, f value)⟩

/-- Reading behind a write yields the written value. -/
theorem get?_insert_self (bindings : OrderedMap α) (name : String) (value : α) :
    (bindings.insert name value).get? name = some value := by
  -- The induction follows the search for the old place.
  simp only [get?, insert]
  induction bindings.entries with
  | nil => simp [insertEntry]
  | cons entry rest ih =>
    obtain ⟨other, old⟩ := entry
    by_cases same : other = name
    · simp [insertEntry, same]
    · simp [insertEntry, same, List.lookup_cons, beq_false_of_ne (Ne.symm same), ih]

/-- A write changes no other name. -/
theorem get?_insert_of_ne (bindings : OrderedMap α) {name other : String} (value : α)
    (distinct : other ≠ name) : (bindings.insert name value).get? other = bindings.get? other := by
  -- The induction follows the search for the old place.
  simp only [get?, insert]
  induction bindings.entries with
  | nil => simp [insertEntry, List.lookup_cons, beq_false_of_ne distinct]
  | cons entry rest ih =>
    obtain ⟨here, old⟩ := entry
    by_cases same : here = name
    · subst same
      simp [insertEntry, List.lookup_cons, beq_false_of_ne distinct]
    · by_cases found : other = here
      · subst found
        simp [insertEntry, same]
      · simp [insertEntry, same, List.lookup_cons, beq_false_of_ne found, ih]

/-- A write of the bound value changes nothing. -/
theorem insert_bound (bindings : OrderedMap α) {name : String} {value : α}
    (bound : bindings.get? name = some value) : bindings.insert name value = bindings := by
  obtain ⟨entries⟩ := bindings
  simp only [get?, insert, mk.injEq] at bound ⊢
  -- The induction follows the search for the old place.
  induction entries with
  | nil => simp at bound
  | cons entry rest ih =>
    obtain ⟨other, old⟩ := entry
    by_cases same : other = name
    · subst same
      simp only [List.lookup_cons_self, Option.some.injEq] at bound
      simp [insertEntry, bound]
    · simp only [List.lookup_cons, beq_false_of_ne (Ne.symm same)] at bound
      simp [insertEntry, same, ih bound]

/-- A new name is bound behind all others. -/
theorem insert_new {bindings : OrderedMap α} {name : String} (value : α)
    (absent : name ∉ bindings.names) : (bindings.insert name value).entries =
      bindings.entries ++ [(name, value)] := by
  obtain ⟨entries⟩ := bindings
  simp only [insert, names] at absent ⊢
  induction entries with
  | nil => rfl
  | cons entry rest ih =>
    obtain ⟨other, old⟩ := entry
    simp only [List.map_cons, List.mem_cons, not_or] at absent
    simp [insertEntry, Ne.symm absent.1, ih absent.2]

/-- Bindings with distinct names are made again from their list. -/
theorem ofList_entries {bindings : OrderedMap α} (distinct : bindings.names.Nodup) :
    ofList bindings.entries = bindings := by
  -- The names that are still to come are none of those that are bound already.
  have general : ∀ (rest : List (String × α)) (bound : OrderedMap α),
      ((bound.entries ++ rest).map (·.1)).Nodup →
      (rest.foldl (fun map entry => map.insert entry.1 entry.2) bound).entries =
        bound.entries ++ rest := by
    intro rest
    induction rest with
    | nil => simp
    | cons entry rest ih =>
      intro bound distinct
      obtain ⟨name, value⟩ := entry
      have absent : name ∉ bound.names := by
        intro before
        rw [List.map_append] at distinct
        exact (List.nodup_append.mp distinct).2.2 _ before _ (by simp) rfl
      have made := insert_new value absent
      rw [List.foldl_cons, ih _ (by simpa [made] using distinct), made]
      simp
  have made := general bindings.entries empty (by simpa [empty, names] using distinct)
  exact congrArg OrderedMap.mk made

end OrderedMap

end ScriptEngine

import ScriptEngine.Proofs.Number.Order
import ScriptEngine.Value.Builtin

/-! The order of values. Numbers and moments are compared by size and all else by text, so that a text
between the texts of two numbers can contradict the order of the numbers. -/

namespace ScriptEngine

/-- The order in time is one. -/
instance : Std.TransCmp DateTime.compare :=
  inferInstanceAs <| Std.TransCmp <|
    compareLex (compareOn DateTime.year) <| compareLex (compareOn DateTime.month) <|
    compareLex (compareOn DateTime.day) <| compareLex (compareOn DateTime.hour) <|
    compareLex (compareOn DateTime.minute) <| compareLex (compareOn DateTime.second) <|
    compareOn DateTime.nanosecond

namespace Value

/-- Whether two values are compared by size: both are numbers, or both are moments. -/
def bySize (left right : Value) : Bool :=
  match left.data, right.data with
  | .number _, .number _ => true
  | .dateTime _, .dateTime _ => true
  | _, _ => false

/-- Whether a value is NaN, of the type of numbers but none. -/
def isNaN (value : Value) : Bool :=
  match value.data with
  | .number number => number.isNaN
  | _ => false

/-- The order of the texts of two values. -/
def compareTexts (left right : Value) : Ordering := Ord.compare left.display right.display

instance : Std.TransCmp compareTexts := inferInstanceAs (Std.TransCmp (compareOn Value.display))

/-- The sizes of values do not contradict their texts: if the text of a third value lies between those
of two values that are compared by size, the wrong way round, then these two have the same size and the
same text. -/
def Consistent (values : List Value) : Prop :=
  ∀ low ∈ values, ∀ high ∈ values, ∀ other ∈ values, low.bySize high → ¬ low.bySize other →
    (low.compare high).isLE → (high.compareTexts other).isLE → (other.compareTexts low).isLE →
      low.compare high = .eq ∧ low.compareTexts high = .eq

variable {a b c : Value}

/-- Values that are compared by size are numbers, or moments. -/
theorem bySize_iff : a.bySize b ↔
    (∃ x y, a.data = .number x ∧ b.data = .number y) ∨
      ∃ x y, a.data = .dateTime x ∧ b.data = .dateTime y := by
  unfold bySize
  split <;> simp_all

/-- Values that are not compared by size are compared by text. -/
theorem compare_eq_compareTexts (different : ¬ a.bySize b) : a.compare b = a.compareTexts b := by
  unfold compare
  split
  case h_1 x y left right => exact absurd (bySize_iff.mpr (.inl ⟨x, y, left, right⟩)) different
  case h_2 x y left right => exact absurd (bySize_iff.mpr (.inr ⟨x, y, left, right⟩)) different
  case h_3 => rfl

/-- The two values may change places. -/
theorem bySize_comm : a.bySize b ↔ b.bySize a := by
  rw [bySize_iff, bySize_iff]
  constructor <;>
  · rintro (⟨x, y, left, right⟩ | ⟨x, y, left, right⟩)
    · exact .inl ⟨y, x, right, left⟩
    · exact .inr ⟨y, x, right, left⟩

/-- Of three values, the outer two are compared by size if each of them is with the one between them. -/
theorem bySize_trans (first : a.bySize b) (second : b.bySize c) : a.bySize c := by
  rw [bySize_iff] at first second ⊢
  rcases first with ⟨x, y, left, middle⟩ | ⟨x, y, left, middle⟩ <;>
    rcases second with ⟨y', z, middle', right⟩ | ⟨y', z, middle', right⟩
  · exact .inl ⟨x, z, left, right⟩
  · cases middle.symm.trans middle'
  · cases middle.symm.trans middle'
  · exact .inr ⟨x, z, left, right⟩

/-- The order of two values is reversed if they change places. -/
theorem compare_swap (a b : Value) : (a.compare b).swap = b.compare a := by
  by_cases same : a.bySize b
  · -- Two numbers are compared as such, and so are two moments.
    rcases bySize_iff.mp same with ⟨x, y, left, right⟩ | ⟨x, y, left, right⟩
    · simp only [compare, left, right]
      exact compareNumbers_swap x y
    · simp only [compare, left, right]
      exact Std.OrientedCmp.eq_swap.symm
  · rw [compare_eq_compareTexts same, compare_eq_compareTexts fun other => same (bySize_comm.mp other)]
    exact Std.OrientedCmp.eq_swap.symm

/-- Of two values one is not behind the other. -/
theorem compare_total (a b : Value) : (a.compare b).isLE ∨ (b.compare a).isLE := by
  rw [← compare_swap a b]
  cases a.compare b <;> simp

/-- Of two texts one is not behind the other. -/
theorem compareTexts_total (a b : Value) : (a.compareTexts b).isLE ∨ (b.compareTexts a).isLE := by
  have swapped : b.compareTexts a = (a.compareTexts b).swap := Std.OrientedCmp.eq_swap
  rw [swapped]
  cases a.compareTexts b <;> simp

/-- Among values that are compared by size, those that are no numbers apart, the order is transitive. -/
theorem compare_trans_bySize (first : a.bySize b) (second : b.bySize c) (isLeft : a.isNaN = false)
    (isMiddle : b.isNaN = false) (isRight : c.isNaN = false) (lower : (a.compare b).isLE)
    (upper : (b.compare c).isLE) : (a.compare c).isLE := by
  rcases bySize_iff.mp first with ⟨x, y, left, middle⟩ | ⟨x, y, left, middle⟩ <;>
    rcases bySize_iff.mp second with ⟨y', z, middle', right⟩ | ⟨y', z, middle', right⟩
  · cases middle.symm.trans middle'
    -- Without NaN, numbers are compared by their ranks.
    simp only [compare, isNaN, left, middle, right] at *
    rw [compareNumbers_isLE isLeft isMiddle] at lower
    rw [compareNumbers_isLE isMiddle isRight] at upper
    rw [compareNumbers_isLE isLeft isRight]
    exact lower.trans upper
  · cases middle.symm.trans middle'
  · cases middle.symm.trans middle'
  · cases middle.symm.trans middle'
    simp only [compare, left, middle, right] at *
    exact Std.TransCmp.isLE_trans lower upper

/-- If sizes do not contradict texts, the order is transitive. -/
theorem Consistent.trans {values : List Value} (consistent : Consistent values)
    (numbers : ∀ value ∈ values, value.isNaN = false) (isLeft : a ∈ values) (isMiddle : b ∈ values)
    (isRight : c ∈ values) (lower : (a.compare b).isLE) (upper : (b.compare c).isLE) :
    (a.compare c).isLE := by
  by_cases first : a.bySize b
  · by_cases second : b.bySize c
    · -- If each of the outer two is compared by size with the one between them, so are all three.
      exact compare_trans_bySize first second (numbers a isLeft) (numbers b isMiddle) (numbers c isRight)
        lower upper
    -- The last one is compared by text with both of the others.
    have outer : ¬ a.bySize c := fun same => second (bySize_trans (bySize_comm.mp first) same)
    rw [compare_eq_compareTexts second] at upper
    rw [compare_eq_compareTexts outer]
    rcases compareTexts_total a c with below | above
    · exact below
    · have same := (consistent a isLeft b isMiddle c isRight first outer lower upper above).2
      exact Std.TransCmp.isLE_trans (b := b) (by simp [same]) upper
  by_cases second : b.bySize c
  · -- The first one is compared by text with both of the others.
    have outer : ¬ a.bySize c := fun same => first (bySize_trans same (bySize_comm.mp second))
    rw [compare_eq_compareTexts first] at lower
    rw [compare_eq_compareTexts outer]
    rcases compareTexts_total a c with below | above
    · exact below
    · have other : ¬ b.bySize a := fun same => first (bySize_comm.mp same)
      have same := (consistent b isMiddle c isRight a isLeft second other upper above lower).2
      exact Std.TransCmp.isLE_trans lower (by simp [same])
  -- Only the outer two may be compared by size.
  rw [compare_eq_compareTexts first] at lower
  rw [compare_eq_compareTexts second] at upper
  by_cases outer : a.bySize c
  · -- The text of the one in the middle lies between those of the others.
    rcases compare_total a c with below | above
    · exact below
    · have other : ¬ c.bySize b := fun same => second (bySize_comm.mp same)
      have same := (consistent c isRight a isLeft b isMiddle (bySize_comm.mp outer) other above lower
        upper).1
      rw [← compare_swap c a, same]
      rfl
  · rw [compare_eq_compareTexts outer]
    exact Std.TransCmp.isLE_trans lower upper

/-- If the order is transitive, sizes do not contradict texts. -/
theorem consistent_of_trans {values : List Value}
    (trans : ∀ a ∈ values, ∀ b ∈ values, ∀ c ∈ values, (a.compare b).isLE → (b.compare c).isLE →
      (a.compare c).isLE) : Consistent values := by
  intro low isLow high isHigh other isOther same different lower upper above
  have different' : ¬ high.bySize other := fun also =>
    different (bySize_trans same also)
  have fromHigh : (high.compare other).isLE := by rwa [compare_eq_compareTexts different']
  have toLow : (other.compare low).isLE := by
    rwa [compare_eq_compareTexts fun also => different (bySize_comm.mp also)]
  -- The three are in a circle, so that each of them is not behind each other one.
  have back : (high.compare low).isLE := trans high isHigh other isOther low isLow fromHigh toLow
  have lowOther : (low.compareTexts other).isLE := by
    rw [← compare_eq_compareTexts different]
    exact trans low isLow high isHigh other isOther lower fromHigh
  have otherHigh : (other.compareTexts high).isLE := by
    rw [← compare_eq_compareTexts fun also => different' (bySize_comm.mp also)]
    exact trans other isOther low isLow high isHigh toLow lower
  refine ⟨?_, ?_⟩
  · rw [← compare_swap low high] at back
    revert lower back
    cases low.compare high <;> simp
  · have texts : (low.compareTexts high).isLE := Std.TransCmp.isLE_trans lowOther otherHigh
    have textsBack : (high.compareTexts low).isLE := Std.TransCmp.isLE_trans upper above
    exact Std.OrientedCmp.isLE_antisymm texts textsBack

/-- Values of which any two are compared by size do not contradict themselves, and neither do values of
which no two are. -/
theorem consistent_of_uniform {values : List Value}
    (uniform : (∀ a ∈ values, ∀ b ∈ values, a.bySize b) ∨ ∀ a ∈ values, ∀ b ∈ values, ¬ a.bySize b) :
    Consistent values := by
  intro low isLow high isHigh other isOther same different
  rcases uniform with all | none
  · exact absurd (all low isLow other isOther) different
  · exact absurd same (none low isLow high isHigh)

/-- Putting a value into a sorted list only adds it. -/
theorem insertSorted_perm (value : Value) (sorted : List Value) :
    (insertSorted value sorted).Perm (value :: sorted) := by
  induction sorted with
  | nil => exact .refl _
  | cons greatest rest ih =>
    unfold insertSorted
    split
    · exact (ih.cons greatest).trans (.swap value greatest rest)
    · exact .refl _

/-- A list in descending order stays one if a value is put into it. -/
theorem insertSorted_descending {value : Value} {sorted : List Value}
    (trans : ∀ a ∈ value :: sorted, ∀ b ∈ value :: sorted, ∀ c ∈ value :: sorted,
      (a.compare b).isLE → (b.compare c).isLE → (a.compare c).isLE)
    (descending : sorted.Pairwise fun later earlier => (earlier.compare later).isLE) :
    (insertSorted value sorted).Pairwise fun later earlier => (earlier.compare later).isLE := by
  induction sorted with
  | nil => exact List.pairwise_singleton _ _
  | cons greatest rest ih =>
    obtain ⟨isGreatest, descendingRest⟩ := List.pairwise_cons.mp descending
    unfold insertSorted
    split
    case isTrue less =>
      refine List.pairwise_cons.mpr ⟨fun item member => ?_, ih ?_ descendingRest⟩
      · rcases List.mem_cons.mp ((insertSorted_perm value rest).mem_iff.mp member) with rfl | later
        · simp [less]
        · exact isGreatest item later
      · -- The rest is shorter, and its values are some of those of the whole list.
        have among : value :: rest ⊆ value :: greatest :: rest :=
          List.cons_subset_cons value (List.subset_cons_self greatest rest)
        exact fun a isA b isB c isC => trans a (among isA) b (among isB) c (among isC)
    case isFalse notLess =>
      have above : (greatest.compare value).isLE := by
        rw [← compare_swap value greatest]
        revert notLess
        cases value.compare greatest <;> simp
      refine List.pairwise_cons.mpr ⟨fun item member => ?_, descending⟩
      rcases List.mem_cons.mp member with rfl | later
      · exact above
      · exact trans item (by simp [later]) greatest (by simp) value (by simp) (isGreatest item later)
          above

/-- Sorting only moves values. -/
theorem sort_perm (values : List Value) : (sort values).Perm values := by
  -- The induction is on the values that are not put in yet.
  have inserted : ∀ (rest sorted : List Value),
      (rest.foldl (fun sorted value => insertSorted value sorted) sorted).Perm (sorted ++ rest) := by
    intro rest
    induction rest with
    | nil => simp
    | cons value rest ih =>
      intro sorted
      refine (ih _).trans (((insertSorted_perm value sorted).append_right rest).trans ?_)
      exact List.perm_middle.symm
  exact (List.reverse_perm _).trans (inserted values [])

/-- If the order of the values is transitive, then sorting brings them into it. -/
theorem sort_ascending {values : List Value}
    (trans : ∀ a ∈ values, ∀ b ∈ values, ∀ c ∈ values, (a.compare b).isLE → (b.compare c).isLE →
      (a.compare c).isLE) :
    (sort values).Pairwise fun earlier later => (earlier.compare later).isLE := by
  -- What was put in so far are some of the values, in descending order.
  have inserted := List.foldlRecOn (motive := fun sorted : List Value => sorted ⊆ values ∧
      sorted.Pairwise fun later earlier => (earlier.compare later).isLE)
    values (fun sorted value => insertSorted value sorted) (b := []) ⟨List.nil_subset _, .nil⟩ ?_
  · exact List.pairwise_reverse.mpr inserted.2
  · rintro sorted ⟨known, descending⟩ value isValue
    have among : value :: sorted ⊆ values := List.cons_subset.mpr ⟨isValue, known⟩
    refine ⟨fun item member => among ((insertSorted_perm value sorted).mem_iff.mp member), ?_⟩
    exact insertSorted_descending
      (fun a isA b isB c isC => trans a (among isA) b (among isB) c (among isC)) descending

/-- The order of two values is reversed if they change places. Among values without NaN it is transitive
exactly if no third value lies by its text between two numbers, or two moments, whose texts stand in the
opposite order, as is the case for numbers alone, for moments alone and for values with neither. Then the
property `sort` of a collection is a permutation of its elements in which none is behind a later one. -/
theorem sorting_follows_consistent_order (values : List Value)
    (numbers : ∀ value ∈ values, value.isNaN = false) :
    (∀ a b : Value, (a.compare b).swap = b.compare a) ∧
    ((∀ a ∈ values, ∀ b ∈ values, ∀ c ∈ values, a.compare b ≠ .gt → b.compare c ≠ .gt →
      a.compare c ≠ .gt) ↔ Consistent values) ∧
    ((∀ a ∈ values, ∀ b ∈ values, a.bySize b) ∨ (∀ a ∈ values, ∀ b ∈ values, ¬ a.bySize b) →
      Consistent values) ∧
    (Consistent values → ∀ (value : Value) (index : Option (List (String × Nat))),
      value.data = .collection ⟨values, index⟩ →
        ∃ sorted, value.builtinProperty? "sort" = some (array sorted) ∧ sorted.Perm values ∧
          sorted.Pairwise fun earlier later => earlier.compare later ≠ .gt) := by
  simp only [← Ordering.isLE_iff_ne_gt]
  have trans : Consistent values → ∀ a ∈ values, ∀ b ∈ values, ∀ c ∈ values, (a.compare b).isLE →
      (b.compare c).isLE → (a.compare c).isLE :=
    fun consistent _ isA _ isB _ isC => consistent.trans numbers isA isB isC
  refine ⟨compare_swap, ⟨consistent_of_trans, trans⟩, consistent_of_uniform, ?_⟩
  intro consistent value index data
  refine ⟨sort values, ?_, sort_perm values, sort_ascending (trans consistent)⟩
  -- The property is found under its name as it is written.
  have named : memberName "sort" = "sort" := by decide +kernel
  simp only [builtinProperty?, named, data]

/-- Two numbers, and a text that is behind both of their texts. -/
def measured : List Value := [number 10, string "none", number 9]

/-- The text is no matter for the order of the numbers. -/
theorem sorting_follows_consistent_order_measured :
    (∀ value ∈ measured, value.isNaN = false) ∧ Consistent measured ∧
      ∃ sorted, (array measured).builtinProperty? "sort" = some (array sorted) ∧
        sorted.Perm measured ∧ sorted.Pairwise fun earlier later => earlier.compare later ≠ .gt := by
  have numbers : ∀ value ∈ measured, value.isNaN = false := by decide +kernel
  -- The text is behind those of both numbers, so that it lies between none of them.
  have consistent : Consistent measured := by
    unfold Consistent
    decide +kernel
  obtain ⟨_, _, _, sorts⟩ := sorting_follows_consistent_order measured numbers
  exact ⟨numbers, consistent, sorts consistent (array measured) none rfl⟩

/-- Two numbers and a text that is equal to one of them, but stands in front of the text of the other. -/
def circle : List Value := [number 9, number 10, string "10"]

/-- The order of these values goes in a circle, and sorting leaves one of them in front of another one
that it is behind. -/
theorem order_goes_in_circle :
    (number 9).compare (number 10) ≠ .gt ∧ (number 10).compare (string "10") ≠ .gt ∧
      (number 9).compare (string "10") = .gt ∧
      ¬ (sort circle).Pairwise fun earlier later => earlier.compare later ≠ .gt := by
  decide +kernel

end Value

end ScriptEngine

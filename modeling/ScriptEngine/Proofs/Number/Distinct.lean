import ScriptEngine.Proofs.Number.ReadsBack

/-! The texts of different numbers are different. -/

namespace ScriptEngine.Number

/-- The characters that the texts of numbers consist of. -/
def isNumeric (c : Char) : Bool := c.isDigit || ['-', '.', 'i', 'n', 'f'].contains c

/-- Digits are numeric. -/
theorem isNumeric_of_isDigit {c : Char} (digit : c.isDigit = true) : isNumeric c = true := by
  simp [isNumeric, digit]

/-- The digits of a number are numeric. -/
theorem isNumeric_toDigits {n : Nat} : ∀ c ∈ Nat.toDigits 10 n, isNumeric c = true :=
  fun c member => isNumeric_of_isDigit (isDigit_toDigits c member)

/-- Zeros are numeric. -/
theorem isNumeric_zeros {count : Nat} : ∀ c ∈ List.replicate count '0', isNumeric c = true :=
  fun c zero => isNumeric_of_isDigit (isDigit_zeros c zero)

/-- The text of an integer is numeric. -/
theorem isNumeric_toString (n : Int) : ∀ c ∈ (toString n).toList, isNumeric c = true := by
  intro c member
  have written : toString n = n.repr := rfl
  rw [written, Int.repr_eq_if] at member
  -- A negative integer has a sign in front of the digits of its size.
  split at member
  · exact isNumeric_toDigits c (by simpa [Nat.repr] using member)
  · rw [String.toList_append] at member
    rcases List.mem_append.mp member with sign | digit
    · rw [List.mem_singleton.mp sign]
      decide
    · exact isNumeric_toDigits c (by simpa [Nat.repr] using digit)

/-- The text of a decimal is numeric. -/
theorem isNumeric_positional (decimal : Decimal) :
    ∀ c ∈ decimal.positional.toList, isNumeric c = true := by
  intro c member
  have digits : ∀ count, ∀ c ∈ List.replicate count '0' ++ Nat.toDigits 10 decimal.digits,
      isNumeric c = true := by
    intro count c member
    exact (List.mem_append.mp member).elim (isNumeric_zeros c) (isNumeric_toDigits c)
  unfold Decimal.positional at member
  dsimp only at member
  -- The point is behind the digits, or it stands between them.
  split at member
  · rw [String.toList_ofList] at member
    exact (List.mem_append.mp member).elim (isNumeric_toDigits c) (isNumeric_zeros c)
  · rw [String.toList_ofList] at member
    rcases List.mem_append.mp member with whole | fraction
    · exact digits _ c (List.mem_of_mem_take whole)
    · rcases List.mem_cons.mp fraction with rfl | fraction
      · decide
      · exact digits _ c (List.mem_of_mem_drop fraction)

/-- The text of a number is numeric. -/
theorem isNumeric_format {x : Float} (isNumber : x.isNaN = false) :
    ∀ c ∈ (format x).toList, isNumeric c = true := by
  intro c member
  unfold format at member
  rw [isNumber] at member
  simp only [Bool.false_eq_true, if_false] at member
  split at member
  · -- An infinity is a word, of which each letter is counted as numeric.
    have words : "-inf".toList.all isNumeric = true ∧ "inf".toList.all isNumeric = true := by decide
    split at member
    · exact List.all_eq_true.mp words.1 c member
    · exact List.all_eq_true.mp words.2 c member
  split at member
  · exact isNumeric_toString _ c member
  split at member
  · rw [String.toList_append] at member
    rcases List.mem_append.mp member with sign | digit
    · rw [List.mem_singleton.mp sign]
      decide
    · exact isNumeric_positional _ c digit
  · exact isNumeric_positional _ c member

/-- Each number has a text. -/
theorem format_ne_nil (x : Float) : (format x).toList ≠ [] := by
  intro none
  have reads := readsBack x
  rw [ReadsBack, none] at reads
  cases reads

/-- Two numbers have the same text exactly if they are equal. -/
theorem format_eq_iff {x y : Float} (isLeft : x.isNaN = false) (isRight : y.isNaN = false) :
    format x = format y ↔ (x == y) = true := by
  have left : x ≠ Float.nan := by simpa [Float.isNaN_eq_decide_eq_nan] using isLeft
  have right : y ≠ Float.nan := by simpa [Float.isNaN_eq_decide_eq_nan] using isRight
  rw [Float.beq_iff_ne_nan_and_eq]
  constructor
  · intro same
    -- Both numbers are read from the same text, in which only the sign of zero may be lost.
    have readLeft := readsBack x
    have readRight := readsBack y
    rw [ReadsBack, same] at readLeft
    have written : asWritten x = asWritten y := Option.some.inj (readLeft.symm.trans readRight)
    refine ⟨left, right, ?_⟩
    unfold asWritten at written
    split at written <;> split at written
    case isTrue.isTrue zero zero' => exact .inl (eq_of_toBits (zero.trans zero'.symm))
    case isTrue.isFalse zero other => exact .inr (.inr ⟨eq_of_toBits zero, written.symm⟩)
    case isFalse.isTrue other zero => exact .inr (.inl ⟨written, eq_of_toBits zero⟩)
    case isFalse.isFalse => exact .inl written
  · have zeros : format 0 = format (-0) := by decide
    rintro ⟨-, -, rfl | ⟨rfl, rfl⟩ | ⟨rfl, rfl⟩⟩
    · rfl
    · exact zeros
    · exact zeros.symm

end ScriptEngine.Number

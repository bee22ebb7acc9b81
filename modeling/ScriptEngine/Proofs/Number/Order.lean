import ScriptEngine.Proofs.Number.Double
import ScriptEngine.Value.Coercion

/-! The order of numbers. -/

namespace ScriptEngine.Number

open Float.Model (UnpackedFloat)

/-- Where the parts of a double place it: first come the infinities, the signs and zero, then the
exponents, then the mantissas, and among negative doubles the last two in reverse. -/
def place : UnpackedFloat → ℤ ×ₗ ℤ ×ₗ ℤ
  | .notANumber => toLex (0, toLex (0, 0))
  | .infinity .negative => toLex (-2, toLex (0, 0))
  | .finite .negative mantissa exponent _ => toLex (-1, toLex (-exponent, -mantissa))
  | .zero _ => toLex (0, toLex (0, 0))
  | .finite .positive mantissa exponent _ => toLex (1, toLex (exponent, mantissa))
  | .infinity .positive => toLex (2, toLex (0, 0))

/-- Parts of doubles are compared by their places, unless one of them stands for no number. -/
theorem compare_eq_lt_iff {left right : UnpackedFloat} (isLeft : left ≠ .notANumber)
    (isRight : right ≠ .notANumber) :
    left.compare right = some .lt ↔ place left < place right := by
  -- But for finite numbers of one sign the first component decides.
  cases left with
  | notANumber => exact absurd rfl isLeft
  | infinity s =>
    cases s <;> rcases right with t | t | t | ⟨t, n, f, _⟩ <;> try cases t
    all_goals simp_all [UnpackedFloat.compare, place, Prod.Lex.toLex_lt_toLex]
    all_goals decide
  | zero =>
    rcases right with t | t | t | ⟨t, n, f, _⟩ <;> try cases t
    all_goals simp_all [UnpackedFloat.compare, place, Prod.Lex.toLex_lt_toLex]
  | finite s m e =>
    cases s <;> rcases right with t | t | t | ⟨t, n, f, _⟩ <;> try cases t
    all_goals simp_all [UnpackedFloat.compare, place, Prod.Lex.toLex_lt_toLex,
      Ordering.then_eq_lt, Ordering.then_eq_gt, compare_lt_iff_lt, compare_gt_iff_gt]

/-- Where a double is placed. -/
def rank (x : Float) : ℤ ×ₗ ℤ ×ₗ ℤ := place x.toModel.unpack

/-- A double is no number exactly if its parts say so. -/
theorem isNaN_iff {x : Float} : x.isNaN = true ↔ x.toModel.unpack = .notANumber := by
  change x.toModel.unpack.isNaN = true ↔ _
  cases x.toModel.unpack <;> simp [UnpackedFloat.isNaN]

/-- The parts of a number do not say so. -/
theorem unpack_ne_notANumber {x : Float} (isNumber : x.isNaN = false) :
    x.toModel.unpack ≠ .notANumber := by
  intro unpacked
  rw [isNaN_iff.mpr unpacked] at isNumber
  cases isNumber

/-- Numbers are ordered as their ranks are. -/
theorem lt_iff_rank {x y : Float} (isLeft : x.isNaN = false) (isRight : y.isNaN = false) :
    x < y ↔ rank x < rank y := by
  rw [lt_iff_unpack]
  exact compare_eq_lt_iff (unpack_ne_notANumber isLeft) (unpack_ne_notANumber isRight)

/-- Only numbers are in front of or behind each other. -/
theorem isNaN_of_lt {x y : Float} (less : x < y) : x.isNaN = false ∧ y.isNaN = false := by
  rw [lt_iff_unpack] at less
  constructor
  -- A comparison with what is no number has no result, on either side.
  · by_contra other
    rw [isNaN_iff.mp (Bool.of_not_eq_false other)] at less
    cases less
  · by_contra other
    have none : ∀ parts : UnpackedFloat, parts.compare .notANumber = none := by
      rintro (sign | _ | _ | _) <;> rfl
    rw [isNaN_iff.mp (Bool.of_not_eq_false other), none] at less
    cases less

/-- No double is both in front of another one and behind it. -/
theorem lt_asymm {x y : Float} (less : x < y) : ¬ y < x := by
  obtain ⟨isLeft, isRight⟩ := isNaN_of_lt less
  rw [lt_iff_rank isLeft isRight] at less
  rw [lt_iff_rank isRight isLeft]
  exact less.asymm

end ScriptEngine.Number

namespace ScriptEngine.Value

open Number (rank lt_iff_rank lt_asymm)

/-- The order of two doubles is reversed if they change places. -/
theorem compareNumbers_swap (x y : Float) : (compareNumbers x y).swap = compareNumbers y x := by
  unfold compareNumbers
  -- At most one of the two doubles is less than the other.
  by_cases less : x < y
  · rw [if_pos less, if_neg (lt_asymm less), if_pos less]
    rfl
  · rw [if_neg less]
    by_cases greater : y < x
    · rw [if_pos greater, if_pos greater]
      rfl
    · rw [if_neg greater, if_neg greater, if_neg less]
      rfl

/-- A number is not behind another one exactly if its rank is not. -/
theorem compareNumbers_isLE {x y : Float} (isLeft : x.isNaN = false) (isRight : y.isNaN = false) :
    (compareNumbers x y).isLE ↔ rank x ≤ rank y := by
  have below := lt_iff_rank isLeft isRight
  have above := lt_iff_rank isRight isLeft
  rw [← not_lt, ← above]
  unfold compareNumbers
  by_cases less : x < y
  · simp [less, lt_asymm less]
  · by_cases greater : y < x <;> simp [less, greater]

end ScriptEngine.Value

import ScriptEngine.Proofs.Number.Integer
import ScriptEngine.Proofs.Number.Order

/-! Counts as numbers: up to 53 bits of them are kept, no smaller number is cut to one of them, and none is
negative. -/

namespace ScriptEngine.Number

open Float.Model (UnpackedFloat)
open Float.Model.Format (binary64)
open Float.Model.UnpackedFloat (Sign ExtendedMantissa roundToInt roundWithAccuracy)

variable {number other : Binary} {x : Float} {n : Nat}

/-! Numbers that are cut to natural numbers. -/

/-- The bits that stay do not depend on those that are shifted out. -/
theorem mantissa_shiftRight (extended : ExtendedMantissa) (places : Nat) :
    (extended >>> places).mantissa = extended.mantissa >>> places := by
  induction places with
  | zero => rfl
  | succ places ih =>
    rw [Nat.shiftRight_succ, ← ih]
    rfl

/-- Rounding toward zero leaves the whole part of a magnitude. -/
theorem roundToInt_eq (number : Binary) (sign : Sign) :
    roundToInt sign number.mantissa number.exponent = sign.apply number.whole := by
  -- The digits are shifted up to a whole exponent and then down to none.
  have shifted : roundToInt sign number.mantissa number.exponent =
      sign.apply (number.mantissa <<< number.exponent.toNat >>>
        (-(number.exponent - number.exponent.toNat)).toNat) := by
    unfold roundToInt UnpackedFloat.decreaseExponent UnpackedFloat.shiftToExponent
    simp only [mantissa_shiftRight, ofMantissaAndAccuracy_mantissa, Int.sub_zero, Int.zero_sub]
  rw [shifted, Binary.whole]
  split
  case isTrue high =>
    have none : (-(number.exponent - number.exponent.toNat)).toNat = 0 := by omega
    rw [none]
    rfl
  case isFalse low =>
    have none : number.exponent.toNat = 0 := by omega
    rw [none, Nat.shiftLeft_zero, Int.natCast_zero, Int.sub_zero]

/-- Natural numbers are clamped to the largest one of 64 bits. -/
theorem toNat_ofNatClamp (n : Nat) : (UInt64.ofNatClamp n).toNat = min n (2 ^ 64 - 1) := by
  unfold UInt64.ofNatClamp
  split
  case isTrue fits =>
    have bounded : n < 2 ^ 64 := fits
    rw [UInt64.toNat_ofNatLT]
    omega
  case isFalse large =>
    have bounded : ¬ n < 2 ^ 64 := large
    rw [UInt64.toNat_ofNatLT]
    show 2 ^ 64 - 1 = _
    omega

/-- What a number is cut to is read off its parts. -/
theorem truncated_eq (x : Float) :
    Value.truncated x = min (x.toModel.unpack.toInt 0 (2 ^ 64 - 1)).toNat (2 ^ 64 - 1) :=
  toNat_ofNatClamp _

/-- A magnitude is cut to its whole part. -/
theorem truncated_toFloat (canonical : number.Canonical) :
    Value.truncated (number.toFloat .positive canonical) = min number.whole (2 ^ 64 - 1) := by
  rw [truncated_eq, number.unpack_toFloat, Binary.unpacked, UnpackedFloat.toInt, roundToInt_eq]
  rfl

/-! Counts. -/

/-- A count of up to 53 bits is converted to a double of its size. -/
theorem exists_count (positive : 0 < n) (small : n ≤ 2 ^ 53) :
    ∃ number : Binary, ∃ canonical : number.Canonical,
      Float.ofNat n = number.toFloat .positive canonical ∧ number.value = n := by
  -- A magnitude of that value is at hand, since a count below the bound is one of the exact ones.
  obtain ⟨number, canonical, value⟩ : ∃ number : Binary, ∃ _ : number.Canonical, number.value = n := by
    by_cases edge : n = 2 ^ 53
    · refine ⟨⟨2 ^ 52, 1⟩, ⟨by decide, by decide, by decide, by decide, .inr (le_refl _)⟩, ?_⟩
      rw [edge, Binary.value]
      norm_num
    · obtain ⟨number, canonical, _, value, _⟩ := (stands_toFloat positive (by omega)).parts
      exact ⟨number, canonical, value⟩
  exact ⟨number, canonical, ofInt_eq false positive canonical value, value⟩

/-- A count of up to 53 bits is kept. -/
theorem truncated_ofNat (small : n ≤ 2 ^ 53) : Value.truncated (Float.ofNat n) = n := by
  by_cases none : n = 0
  · subst none
    decide
  · obtain ⟨number, canonical, converted, value⟩ := exists_count (Nat.pos_of_ne_zero none) small
    rw [converted, truncated_toFloat, whole_of_value value]
    omega

/-- The whole part of a magnitude is not above it. -/
theorem whole_le_value (number : Binary) : (number.whole : ℚ) ≤ number.value := by
  -- With an exponent of at least zero the magnitude is whole, and below it the fraction is cut.
  unfold Binary.whole Binary.value
  split
  case isTrue high =>
    rw [Nat.shiftLeft_eq]
    push_cast
    rw [zpow_of_nonneg 2 high]
  case isFalse low =>
    rw [Nat.shiftRight_eq_div_pow, zpow_of_nonpos 2 (by omega : number.exponent ≤ 0),
      ← div_eq_mul_inv]
    exact_mod_cast Nat.cast_div_le (α := ℚ) (m := number.mantissa) (n := 2 ^ (-number.exponent).toNat)

/-- A magnitude with a smaller exponent, or with a smaller mantissa at the same exponent, is smaller. -/
theorem value_lt_value (canonical : number.Canonical) (larger : other.Canonical)
    (less : toLex (number.exponent, (number.mantissa : ℤ)) <
      toLex (other.exponent, (other.mantissa : ℤ))) : number.value < other.value := by
  rw [Binary.value, Binary.value]
  rcases Prod.Lex.toLex_lt_toLex.mp less with below | ⟨same, fewer⟩
  · -- The larger one has its leading bit, which the smaller one does not reach.
    have leads : 2 ^ 52 ≤ other.mantissa := by
      have least := canonical.least
      exact larger.leads.resolve_left (by simp only at below; omega)
    have unit : (0 : ℚ) < 2 ^ number.exponent := by positivity
    calc (number.mantissa : ℚ) * 2 ^ number.exponent
        < 2 ^ 53 * 2 ^ number.exponent := by
          gcongr
          exact_mod_cast canonical.fits
      _ = 2 ^ 52 * 2 ^ (number.exponent + 1) := by
          rw [zpow_add₀ (by norm_num)]
          ring
      _ ≤ other.mantissa * 2 ^ other.exponent := by
          gcongr
          · exact_mod_cast leads
          · norm_num
          · exact below
  · simp only at same fewer
    rw [same]
    have fewer : (number.mantissa : ℚ) < other.mantissa := by exact_mod_cast fewer
    gcongr

/-- The parts of a magnitude are those of a number. -/
theorem unpacked_ne_notANumber (sign : Sign) (canonical : number.Canonical) :
    number.unpacked sign canonical ≠ .notANumber := by
  intro same
  cases same

/-- A number below a count that is not zero is cut to less than it. -/
theorem truncated_lt (positive : 0 < n) (small : n ≤ 2 ^ 53) (less : x < Float.ofNat n) :
    Value.truncated x < n := by
  obtain ⟨number, canonical, converted, value⟩ := exists_count positive small
  rw [converted, lt_iff_unpack, number.unpack_toFloat] at less
  rw [truncated_eq]
  refine (min_le_left _ _).trans_lt ?_
  -- What is negative or zero is cut to nothing.
  cases kind x with
  | nan unpacked =>
    rw [unpacked] at less
    cases less
  | infinity unpacked =>
    rw [unpacked] at less ⊢
    cases signed : sign x with
    | positive =>
      rw [signed] at less
      cases less
    | negative => exact positive
  | zero unpacked =>
    rw [unpacked]
    exact positive
  | finite xCanonical unpacked =>
    rw [unpacked] at less ⊢
    rw [Binary.unpacked, UnpackedFloat.toInt, roundToInt_eq]
    cases signed : sign x with
    | negative =>
      show (-((Binary.ofFloat x).whole : Int)).toNat < n
      omega
    | positive =>
      rw [signed, compare_eq_lt_iff (unpacked_ne_notANumber _ _) (unpacked_ne_notANumber _ _)] at less
      have below := value_lt_value xCanonical canonical
        ((Prod.Lex.toLex_lt_toLex.mp less).resolve_left (lt_irrefl _)).2
      rw [value] at below
      show (Binary.ofFloat x).whole < n
      exact_mod_cast (whole_le_value _).trans_lt below

/-- A double that is packed from parts without a sign has none. -/
theorem sign_pack {parts : UnpackedFloat} (signed : parts = .zero .positive ∨
    ∃ mantissa exponent positive, parts = .finite .positive mantissa exponent positive) :
    sign (.ofModel (.pack parts)) = .positive := by
  have bits : (Float.ofModel (.pack parts)).toModel.toBits.toBitVec =
    UnpackedFloat.pack binary64 parts := rfl
  -- A sign is packed as the leading bit, whatever the fields behind it are.
  rw [← ofBitVec_unpackSign, bits]
  have components : ∀ exponent mantissa, Sign.ofBitVec (@UnpackedFloat.unpackSign binary64
      (UnpackedFloat.packComponents binary64 .positive exponent mantissa)) = .positive := by
    intro exponent mantissa
    rw [UnpackedFloat.unpackSign_packComponents, Sign.ofBitVec_toBitVec]
  rcases signed with rfl | ⟨mantissa, exponent, positive, rfl⟩
  · exact components _ _
  · unfold UnpackedFloat.pack
    dsimp only
    split
    · exact components _ _
    · split <;> exact components _ _

/-- No count is negative. -/
theorem sign_ofNat (n : Nat) : sign (Float.ofNat n) = .positive := by
  by_cases small : n < 2 ^ 53
  · by_cases none : n = 0
    · subst none
      rfl
    · obtain ⟨number, canonical, converted, _⟩ := exists_count (Nat.pos_of_ne_zero none) small.le
      rw [converted]
      exact (ofFloat_toFloat .positive canonical).2
  · have converted : Float.ofNat n = .ofModel (.pack (UnpackedFloat.ofScientific binary64 n 0)) := by
      show Float.ofScientific n false 0 = _
      unfold Float.ofScientific
      rw [dif_neg (fun fits => small fits.1)]
      rfl
    -- A large count is scaled as a positive number, and rounding keeps the sign.
    have positive : n ≠ 0 := by omega
    have low : ¬ (0 : Int) < -(2 ^ binary64.exponentBits + (n.log2 : Int)) := by
      show ¬ (0 : Int) < -(2 ^ 11 + (n.log2 : Int))
      omega
    rw [converted, UnpackedFloat.ofScientific, dif_neg positive, if_neg (by decide), if_neg low,
      if_pos (le_refl _), UnpackedFloat.mul]
    refine sign_pack ?_
    unfold roundWithAccuracy
    dsimp only
    split
    case isTrue => exact .inl rfl
    case isFalse some => exact .inr ⟨_, _, Nat.pos_of_ne_zero some, rfl⟩

/-- No count is the number that stands for no position. -/
theorem ofNat_ne_minus_one (n : Nat) : Float.ofNat n ≠ -1 := by
  intro same
  have negative : sign (-1) = .negative := rfl
  rw [← same, sign_ofNat] at negative
  cases negative

/-- A number that zero does not exceed is not below zero. -/
theorem not_lt_zero (nonnegative : 0 ≤ x) : ¬ x < 0 := by
  have zero : (0 : Float).toModel.unpack = .zero .positive := rfl
  have least : ((0 : Float).toModel.unpack.compare x.toModel.unpack).any (·.isLE) = true :=
    of_decide_eq_true nonnegative
  rw [lt_iff_unpack, zero]
  rw [zero] at least
  -- The comparison with zero depends on the sign alone.
  generalize x.toModel.unpack = parts at least
  rcases parts with s | s | _ | ⟨s, _, _, _⟩ <;> try cases s
  all_goals simp_all [UnpackedFloat.compare]

/-- A number from zero on that is below a count is cut to less than it. -/
theorem truncated_lt_of_nonneg (small : n ≤ 2 ^ 53) (nonnegative : 0 ≤ x) (less : x < Float.ofNat n) :
    Value.truncated x < n := by
  cases n with
  | zero => exact absurd less (not_lt_zero nonnegative)
  | succ n => exact truncated_lt n.succ_pos small less

end ScriptEngine.Number

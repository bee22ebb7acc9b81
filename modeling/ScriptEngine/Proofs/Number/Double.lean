import Mathlib
import ScriptEngine.Number.Binary

/-! A double as its sign and its magnitude. -/

namespace ScriptEngine.Number

open Float.Model (UnpackedFloat)
open Float.Model.Format (binary64)
open Float.Model.UnpackedFloat (Sign unpackMantissa unpackExponent unpackSign)

/-- A positive magnitude in the one form in which a double holds it. -/
structure Binary.Canonical (number : Binary) : Prop where
  positive : 0 < number.mantissa
  fits : number.mantissa < 2 ^ 53
  least : -1074 ≤ number.exponent
  greatest : number.exponent ≤ 971
  /-- The leading bit is there, but for the numbers with the smallest exponent. -/
  leads : number.exponent = -1074 ∨ 2 ^ 52 ≤ number.mantissa

/-- The sign of a double. -/
def sign (x : Float) : Sign := if isNegative x then .negative else .positive

/-- The parts of a double with a positive magnitude. -/
def Binary.unpacked (number : Binary) (sign : Sign) (canonical : number.Canonical) : UnpackedFloat :=
  .finite sign number.mantissa number.exponent canonical.positive

/-- The double with a sign and a positive magnitude. -/
def Binary.toFloat (number : Binary) (sign : Sign) (canonical : number.Canonical) : Float :=
  .ofModel (.pack (number.unpacked sign canonical))

/-! What the bits of a double say. -/

/-- The bits behind the exponent. -/
theorem unpackMantissa_toNat (bits : BitVec binary64.numBits) :
    (unpackMantissa bits).toNat = bits.toNat % 2 ^ 52 := by
  rw [UnpackedFloat.unpackMantissa_def]
  simp

/-- The bits of the exponent. -/
theorem unpackExponent_toNat (bits : BitVec binary64.numBits) :
    (unpackExponent bits).toNat = bits.toNat / 2 ^ 52 % 2 ^ 11 := by
  rw [UnpackedFloat.unpackExponent_def]
  simp [Nat.shiftRight_eq_div_pow]

/-- The leading bit says whether a double is negative. -/
theorem ofBitVec_unpackSign (x : Float) :
    Sign.ofBitVec (@unpackSign binary64 x.toModel.toBits.toBitVec) = sign x := by
  have leading : (@unpackSign binary64 x.toModel.toBits.toBitVec).toNat =
      x.toBits.toNat >>> 63 := by
    have bounded : x.toBits.toNat < 2 ^ 64 := x.toBits.toBitVec.isLt
    rw [UnpackedFloat.unpackSign_def, BitVec.extractLsb'_toNat]
    show x.toBits.toNat >>> 63 % 2 ^ 1 = _
    rw [Nat.shiftRight_eq_div_pow]
    omega
  have set : @unpackSign binary64 x.toModel.toBits.toBitVec = 0#1 ↔
      x.toBits.toNat >>> 63 = 0 := by
    rw [← BitVec.toNat_inj, leading]
    rfl
  have bit : x.toBits.toNat >>> 63 < 2 := by
    rw [← leading]
    exact BitVec.isLt _
  -- Both sides ask whether this one bit is set.
  unfold Sign.ofBitVec sign isNegative
  by_cases clear : x.toBits.toNat >>> 63 = 0
  · rw [if_pos (set.mpr clear), clear]
    rfl
  · have one : x.toBits.toNat >>> 63 = 1 := by omega
    rw [if_neg fun same => clear (set.mp same), one]
    rfl

/-- The kinds of doubles. -/
inductive Kind (x : Float) : Prop where
  | nan (unpacked : x.toModel.unpack = .notANumber)
  | infinity (unpacked : x.toModel.unpack = .infinity (sign x))
  | zero (unpacked : x.toModel.unpack = .zero (sign x)) (none : (Binary.ofFloat x).mantissa = 0)
  | finite (canonical : (Binary.ofFloat x).Canonical)
      (unpacked : x.toModel.unpack = (Binary.ofFloat x).unpacked (sign x) canonical)

/-- The exponent bits of a double. -/
def exponentField (x : Float) : Nat := x.toBits.toNat / 2 ^ 52 % 2 ^ 11

/-- The exponent bits of a double have one value exactly if the number that they form has it. -/
theorem unpackExponent_eq_iff (x : Float) (bits : BitVec 11) :
    @unpackExponent binary64 x.toModel.toBits.toBitVec = bits ↔
      exponentField x = bits.toNat := by
  rw [← BitVec.toNat_inj, unpackExponent_toNat]
  rfl

/-- The fraction of a double is absent exactly if the number that its bits form is zero. -/
theorem unpackMantissa_eq_zero_iff (x : Float) :
    @unpackMantissa binary64 x.toModel.toBits.toBitVec = 0#52 ↔
      x.toBits.toNat % 2 ^ 52 = 0 := by
  rw [← BitVec.toNat_inj, unpackMantissa_toNat]
  rfl

/-- The magnitude of a double by the fields of its bits. -/
theorem ofFloat_eq (x : Float) : Binary.ofFloat x =
    if exponentField x = 0 then ⟨x.toBits.toNat % 2 ^ 52, -1074⟩
    else ⟨x.toBits.toNat % 2 ^ 52 + 2 ^ 52, (exponentField x : Int) - 1075⟩ :=
  rfl

/-- A double whose exponent bits are all set is an infinity or not a number. -/
theorem kind_of_special {x : Float} (special : exponentField x = 2047) : Kind x := by
  have unpacked : x.toModel.unpack = UnpackedFloat.unpack binary64 x.toModel.toBits.toBitVec := rfl
  rw [UnpackedFloat.unpack] at unpacked
  simp only [ofBitVec_unpackSign] at unpacked
  rw [if_pos ((unpackExponent_eq_iff x (-1#11)).mpr special)] at unpacked
  have absent := unpackMantissa_eq_zero_iff x
  by_cases none : x.toBits.toNat % 2 ^ 52 = 0
  · exact .infinity (by rw [unpacked, if_pos (absent.mpr none)])
  · exact .nan (by rw [unpacked, if_neg fun same => none (absent.mp same)])

/-- A double whose exponent bits are all clear is a zero, or it lacks the leading bit. -/
theorem kind_of_small {x : Float} (small : exponentField x = 0) : Kind x := by
  have unpacked : x.toModel.unpack = UnpackedFloat.unpack binary64 x.toModel.toBits.toBitVec := rfl
  have special : exponentField x ≠ 2047 := by omega
  rw [UnpackedFloat.unpack] at unpacked
  simp only [ofBitVec_unpackSign] at unpacked
  rw [if_neg fun same => special ((unpackExponent_eq_iff x (-1#11)).mp same),
    if_pos ((unpackExponent_eq_iff x 0#11).mpr small)] at unpacked
  have magnitude := ofFloat_eq x
  rw [if_pos small] at magnitude
  have absent := unpackMantissa_eq_zero_iff x
  -- Without a fraction it is a zero, and else the mantissa is the fraction itself.
  by_cases none : x.toBits.toNat % 2 ^ 52 = 0
  · refine .zero ?_ (by rw [magnitude, none])
    rw [unpacked, dif_pos (absent.mpr none)]
  · rw [dif_neg fun same => none (absent.mp same)] at unpacked
    have fraction : x.toBits.toNat % 2 ^ 52 < 2 ^ 52 := Nat.mod_lt _ (by decide)
    have canonical : (Binary.ofFloat x).Canonical := by
      rw [magnitude]
      exact ⟨Nat.pos_of_ne_zero none, by simp only; omega, by simp, by simp, .inl rfl⟩
    refine .finite canonical ?_
    rw [unpacked, Binary.unpacked, UnpackedFloat.finite.injEq, unpackExponent_toNat,
      unpackMantissa_toNat, magnitude]
    refine ⟨rfl, rfl, ?_⟩
    show ((exponentField x : Nat) : Int) - 1075 + 1 = -1074
    omega

/-- All other doubles have the leading bit in front of their fraction. -/
theorem kind_of_normal {x : Float} (special : exponentField x ≠ 2047) (small : exponentField x ≠ 0) :
    Kind x := by
  have unpacked : x.toModel.unpack = UnpackedFloat.unpack binary64 x.toModel.toBits.toBitVec := rfl
  rw [UnpackedFloat.unpack] at unpacked
  simp only [ofBitVec_unpackSign] at unpacked
  rw [if_neg fun same => special ((unpackExponent_eq_iff x (-1#11)).mp same),
    if_neg fun same => small ((unpackExponent_eq_iff x 0#11).mp same)] at unpacked
  have magnitude := ofFloat_eq x
  rw [if_neg small] at magnitude
  have bounded : exponentField x < 2 ^ 11 := Nat.mod_lt _ (by decide)
  have fraction : x.toBits.toNat % 2 ^ 52 < 2 ^ 52 := Nat.mod_lt _ (by decide)
  have canonical : (Binary.ofFloat x).Canonical := by
    rw [magnitude]
    exact ⟨by simp only; omega, by simp only; omega, by simp only; omega, by simp only; omega,
      .inr (Nat.le_add_left _ _)⟩
  -- The mantissa has a leading one in front of the fraction.
  have leading : (1#1 ++ @unpackMantissa binary64 x.toModel.toBits.toBitVec).toNat =
      x.toBits.toNat % 2 ^ 52 + 2 ^ 52 := by
    rw [BitVec.toNat_append, unpackMantissa_toNat]
    show 1 <<< 52 ||| x.toBits.toNat % 2 ^ 52 = _
    rw [← Nat.shiftLeft_add_eq_or_of_lt fraction, Nat.add_comm, Nat.one_shiftLeft]
  refine .finite canonical ?_
  rw [unpacked, Binary.unpacked, UnpackedFloat.finite.injEq, leading, unpackExponent_toNat, magnitude]
  exact ⟨rfl, rfl, rfl⟩

/-- Each double is of one of the kinds, as its bits say. -/
theorem kind (x : Float) : Kind x := by
  by_cases special : exponentField x = 2047
  · exact kind_of_special special
  · by_cases small : exponentField x = 0
    · exact kind_of_small small
    · exact kind_of_normal special small

/-! Doubles from their parts. -/

/-- A double is packed from its parts. -/
theorem ofModel_pack_unpack (x : Float) : Float.ofModel (.pack x.toModel.unpack) = x :=
  Float.ofBits_toBits x

/-- A double is the one that is packed from the parts it has. -/
theorem eq_of_unpack {x : Float} {parts : UnpackedFloat} (unpacked : x.toModel.unpack = parts) :
    x = .ofModel (.pack parts) := by
  rw [← unpacked, ofModel_pack_unpack]

/-- Components without exponent bits are those of a subnormal number. -/
theorem unpack_subnormal (sign : Sign) {mantissa : Nat} (positive : 0 < mantissa)
    (fits : mantissa < 2 ^ 52) :
    UnpackedFloat.unpack binary64
        (UnpackedFloat.packComponents binary64 sign 0#11 (BitVec.ofNat 52 mantissa)) =
      .finite sign mantissa (-1074) positive := by
  have value : (BitVec.ofNat 52 mantissa).toNat = mantissa := by
    rw [BitVec.toNat_ofNat, Nat.mod_eq_of_lt fits]
  -- Without exponent bits, the fraction tells the number from zero.
  have present : BitVec.ofNat 52 mantissa ≠ 0#52 := by
    intro none
    rw [none] at value
    exact absurd value (Nat.ne_of_lt positive)
  have full : (0#11) ≠ -1#11 := by decide
  simp only [UnpackedFloat.unpack, UnpackedFloat.unpackExponent_packComponents,
    UnpackedFloat.unpackMantissa_packComponents, UnpackedFloat.unpackSign_packComponents,
    UnpackedFloat.Sign.ofBitVec_toBitVec, if_neg full, if_true, dif_neg present, value]
  rfl

/-- Components with some but not all exponent bits are those of a number with its leading bit. -/
theorem unpack_normal (sign : Sign) {mantissa field : Nat} (positive : 0 < mantissa)
    (leads : 2 ^ 52 ≤ mantissa) (fits : mantissa < 2 ^ 53) (nonzero : 0 < field)
    (finite : field < 2047) :
    UnpackedFloat.unpack binary64 (UnpackedFloat.packComponents binary64 sign
        (BitVec.ofNat 11 field) (BitVec.ofNat 52 mantissa)) =
      .finite sign mantissa (field - 1075) positive := by
  have exponent : (BitVec.ofNat 11 field).toNat = field := by
    rw [BitVec.toNat_ofNat, Nat.mod_eq_of_lt (by omega)]
  -- The exponent bits are neither those of infinity nor those of a subnormal number.
  have full : BitVec.ofNat 11 field ≠ -1#11 := by
    intro same
    rw [same] at exponent
    exact absurd exponent.symm (Nat.ne_of_lt finite)
  have present : BitVec.ofNat 11 field ≠ 0#11 := by
    intro same
    rw [same] at exponent
    exact absurd exponent (Nat.ne_of_lt nonzero)
  -- The leading bit, which the components leave out, is put back.
  have value : (1#1 ++ BitVec.ofNat 52 mantissa).toNat = mantissa := by
    rw [BitVec.toNat_append, BitVec.toNat_ofNat]
    show 1 <<< 52 ||| mantissa % 2 ^ 52 = mantissa
    rw [← Nat.shiftLeft_add_eq_or_of_lt (Nat.mod_lt _ (by decide)), Nat.one_shiftLeft]
    omega
  simp only [UnpackedFloat.unpack, UnpackedFloat.unpackExponent_packComponents,
    UnpackedFloat.unpackMantissa_packComponents, UnpackedFloat.unpackSign_packComponents,
    UnpackedFloat.Sign.ofBitVec_toBitVec, if_neg full, if_neg present, value, exponent]
  rfl

/-- A double with a magnitude has the parts that it is packed from. -/
theorem Binary.unpack_toFloat (number : Binary) (sign : Sign) (canonical : number.Canonical) :
    (number.toFloat sign canonical).toModel.unpack = number.unpacked sign canonical := by
  obtain ⟨positive, fits, least, greatest, leads⟩ := canonical
  obtain ⟨mantissa, exponent⟩ := number
  dsimp only at positive fits least greatest leads
  show UnpackedFloat.unpack binary64
    (UnpackedFloat.pack binary64 (.finite sign mantissa exponent positive)) =
      .finite sign mantissa exponent positive
  have bias : (exponent + (binary64.exponentBias : Int) + (52 : Nat)).toNat =
      (exponent + 1075).toNat := by
    have : (binary64.exponentBias : Int) = 1023 := by decide
    omega
  -- The exponent has not grown into that of infinity.
  have small : ¬ 2 ^ 11 ≤ (exponent + 1075).toNat + 1 := by omega
  simp only [UnpackedFloat.pack, bias, if_neg small]
  -- A number is packed with its leading bit or as a subnormal one, as its size says.
  by_cases normal : 2 ^ 52 ≤ mantissa
  · have log : mantissa.log2 + 1 = binary64.mantissaBits := by
      rw [(Nat.log2_eq_iff (by omega)).mpr ⟨normal, fits⟩]
      decide
    rw [if_pos log, unpack_normal sign positive normal fits (by omega) (by omega)]
    congr 1
    omega
  · have log : mantissa.log2 + 1 ≠ binary64.mantissaBits := by
      have := (Nat.log2_lt (n := mantissa) (k := 52) (by omega)).mpr (by omega)
      show mantissa.log2 + 1 ≠ 53
      omega
    rw [if_neg log, unpack_subnormal sign positive (by omega)]
    congr 1
    omega

/-- A double of finite size that is not zero is that with its sign and its magnitude. -/
theorem toFloat_ofFloat {x : Float} {canonical : (Binary.ofFloat x).Canonical}
    (unpacked : x.toModel.unpack = (Binary.ofFloat x).unpacked (sign x) canonical) :
    (Binary.ofFloat x).toFloat (sign x) canonical = x := by
  rw [Binary.toFloat, ← unpacked, ofModel_pack_unpack]

/-- The negative of a double with a magnitude has the other sign. -/
theorem Binary.neg_toFloat (number : Binary) (sign : Sign) (canonical : number.Canonical) :
    -number.toFloat sign canonical = number.toFloat (-sign) canonical := by
  show Float.ofModel (.pack (number.toFloat sign canonical).toModel.unpack.neg) = _
  rw [unpack_toFloat]
  rfl

/-- Doubles are ordered as their parts are. -/
theorem lt_iff_unpack (x y : Float) :
    x < y ↔ x.toModel.unpack.compare y.toModel.unpack = some .lt := by
  show decide (x.toModel < y.toModel) = true ↔ _
  rw [decide_eq_true_iff]
  show (x.toModel.unpack.compare y.toModel.unpack == some .lt) = true ↔ _
  exact beq_iff_eq

end ScriptEngine.Number

import Mathlib
import OpTrace.Decimal.Binary64

/-!
# Normal numbers

A positive machine number with a leading bit has a significand of 53 bits. Its sign, exponent field
and fraction stand side by side in 64 bits, and both ways of reading them give the significand and
the exponent back.
-/

namespace OpTrace

open Float.Model

namespace Binary64

variable (x : Binary64)

theorem exponentField_eq : x.exponentField = x.bits.toNat / 2 ^ 52 % 2 ^ 11 := by
  rw [exponentField, UInt64.toNat_and, UInt64.toNat_shiftRight, Nat.shiftRight_eq_div_pow]
  exact Nat.and_two_pow_sub_one_eq_mod _ 11

theorem fraction_eq : x.fraction = x.bits.toNat % 2 ^ 52 := by
  rw [fraction, UInt64.toNat_and]
  exact Nat.and_two_pow_sub_one_eq_mod _ 52

theorem isNegative_eq : x.isNegative = decide (2 ^ 63 ≤ x.bits.toNat) := by
  have h := x.bits.toNat_lt
  rw [isNegative, beq_eq_decide, decide_eq_decide, ← UInt64.toNat_inj, UInt64.toNat_shiftRight,
    Nat.shiftRight_eq_div_pow]
  simp
  omega

def value : ℚ :=
  (if x.isNegative then -1 else 1) * x.significand * 2 ^ x.exponent

end Binary64

/-- A positive machine number with a leading bit. -/
structure Normal where
  significand : Nat
  exponent : Int
  le_significand : 2 ^ 52 ≤ significand
  significand_lt : significand < 2 ^ 53
  le_exponent : -1074 ≤ exponent
  exponent_le : exponent ≤ 971

namespace Normal

variable (x : Normal)

theorem significand_pos : 0 < x.significand := (Nat.two_pow_pos 52).trans_le x.le_significand

theorem log2_significand : x.significand.log2 = 52 :=
  (Nat.log2_eq_iff x.significand_pos.ne').mpr ⟨x.le_significand, x.significand_lt⟩

def value : ℚ := x.significand * 2 ^ x.exponent

/-- The field that the exponent is kept in. -/
def exponentField : Nat := (x.exponent + 1075).toNat

theorem cast_exponentField : (x.exponentField : Int) = x.exponent + 1075 := by
  have hlow := x.le_exponent
  rw [exponentField]
  omega

theorem exponentField_pos : 0 < x.exponentField := by
  have hlow := x.le_exponent
  have hfield := x.cast_exponentField
  omega

theorem exponentField_lt : x.exponentField < 2047 := by
  have hhigh := x.exponent_le
  have hfield := x.cast_exponentField
  omega

def unpacked : UnpackedFloat := .finite .positive x.significand x.exponent x.significand_pos

/-- The parts side by side; the leading bit is left out. -/
def packed : BitVec 64 :=
  UnpackedFloat.packComponents Format.binary64 .positive (.ofNat 11 x.exponentField)
    (.ofNat 52 x.significand)

theorem exponentBias_binary64 : Format.binary64.exponentBias = 1023 := rfl

theorem pack_unpacked : UnpackedFloat.pack Format.binary64 x.unpacked = x.packed := by
  have hfield : (x.exponent + (Format.binary64.exponentBias : Int) + (52 : Nat)).toNat =
      x.exponentField := by
    rw [exponentBias_binary64, exponentField]
    congr 1
    omega
  have hfinite : ¬2 ^ 11 ≤ x.exponentField + 1 := by
    have hhigh := x.exponentField_lt
    omega
  rw [unpacked, UnpackedFloat.pack, x.log2_significand]
  simp only [hfield]
  rw [if_neg hfinite]
  rfl

theorem toNat_packed :
    x.packed.toNat = x.exponentField * 2 ^ 52 + (x.significand - 2 ^ 52) := by
  have hlow := x.le_significand
  have hhigh := x.significand_lt
  have hfield := x.exponentField_lt
  simp only [packed, UnpackedFloat.packComponents, UnpackedFloat.Sign.toBitVec]
  rw [BitVec.toNat_append, BitVec.toNat_append, BitVec.toNat_ofNat, BitVec.toNat_ofNat,
    BitVec.toNat_ofNat, ← Nat.shiftLeft_add_eq_or_of_lt (Nat.mod_lt _ (Nat.two_pow_pos 52)),
    Nat.shiftLeft_eq]
  simp
  omega

def toFloat : Float := .ofModel (.pack x.unpacked)

theorem toBitVec_toBits_toFloat : x.toFloat.toBits.toBitVec = x.packed := x.pack_unpacked

theorem toNat_bits : (Binary64.ofFloat x.toFloat).bits.toNat =
    x.exponentField * 2 ^ 52 + (x.significand - 2 ^ 52) := by
  rw [← x.toNat_packed, ← x.toBitVec_toBits_toFloat]
  rfl

theorem unpackSign_packed : @UnpackedFloat.unpackSign Format.binary64 x.packed = 0#1 := by
  have hlow := x.le_significand
  have hhigh := x.significand_lt
  have hfield := x.exponentField_lt
  apply BitVec.eq_of_toNat_eq
  simp only [UnpackedFloat.unpackSign, BitVec.toNat_cast, BitVec.extractLsb_toNat, x.toNat_packed,
    Nat.shiftRight_eq_div_pow]
  simp
  omega

/-- The machine has the parts of the number back when it computes with it. -/
theorem unpack_toFloat : x.toFloat.toModel.unpack = x.unpacked := by
  have hfield : (BitVec.ofNat 11 x.exponentField).toNat = x.exponentField := by
    have hhigh := x.exponentField_lt
    rw [BitVec.toNat_ofNat]
    omega
  have hsignificand : (1#1 ++ BitVec.ofNat 52 x.significand).toNat = x.significand := by
    have hlow := x.le_significand
    have hhigh := x.significand_lt
    rw [BitVec.toNat_append, BitVec.toNat_ofNat, BitVec.toNat_ofNat,
      ← Nat.shiftLeft_add_eq_or_of_lt (Nat.mod_lt _ (Nat.two_pow_pos 52)), Nat.shiftLeft_eq]
    omega
  have hunpack : x.toFloat.toModel.unpack = UnpackedFloat.unpack Format.binary64 x.packed := by
    rw [← x.pack_unpacked]
    rfl
  have hexponentVec : @UnpackedFloat.unpackExponent Format.binary64 x.packed =
      .ofNat 11 x.exponentField := UnpackedFloat.unpackExponent_packComponents
  have hmantissaVec : @UnpackedFloat.unpackMantissa Format.binary64 x.packed =
      .ofNat 52 x.significand := UnpackedFloat.unpackMantissa_packComponents
  have hinfinite : BitVec.ofNat 11 x.exponentField ≠ -1#11 := by
    have hhigh := x.exponentField_lt
    rw [ne_eq, ← BitVec.toNat_inj, hfield]
    simp
    omega
  have hsubnormal : BitVec.ofNat 11 x.exponentField ≠ 0#11 := by
    have hlow := x.exponentField_pos
    rw [ne_eq, ← BitVec.toNat_inj, hfield]
    simp
    omega
  have hexponent : (x.exponentField : Int) - (Format.binary64.exponentBias + (52 : Nat)) =
      x.exponent := by
    rw [exponentBias_binary64, x.cast_exponentField]
    omega
  rw [hunpack]
  simp only [UnpackedFloat.unpack, unpackSign_packed, hexponentVec, hmantissaVec]
  rw [if_neg hinfinite, if_neg hsubnormal]
  simp only [hfield, hsignificand, hexponent]
  rfl

/-- The bits of the number say what it is. -/
theorem value_ofFloat_toFloat : (Binary64.ofFloat x.toFloat).value = x.value := by
  have hlow := x.le_significand
  have hhigh := x.significand_lt
  have hfield := x.exponentField_pos
  have hfield' := x.exponentField_lt
  have hcast := x.cast_exponentField
  have hbits := x.toNat_bits
  have hpositive : (Binary64.ofFloat x.toFloat).isNegative = false := by
    rw [Binary64.isNegative_eq, hbits, decide_eq_false_iff_not]
    omega
  have hexponentField : (Binary64.ofFloat x.toFloat).exponentField = x.exponentField := by
    rw [Binary64.exponentField_eq, hbits]
    omega
  have hfraction : (Binary64.ofFloat x.toFloat).fraction = x.significand - 2 ^ 52 := by
    rw [Binary64.fraction_eq, hbits]
    omega
  have hsignificand : (Binary64.ofFloat x.toFloat).significand = x.significand := by
    rw [Binary64.significand, hexponentField, if_neg hfield.ne', hfraction]
    exact Nat.add_sub_cancel' hlow
  have hexponent : (Binary64.ofFloat x.toFloat).exponent = x.exponent := by
    rw [Binary64.exponent, hexponentField, if_neg hfield.ne', hcast]
    omega
  rw [Binary64.value, hpositive, hsignificand, hexponent, value]
  simp

end Normal

end OpTrace

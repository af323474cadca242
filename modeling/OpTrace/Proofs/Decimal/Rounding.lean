import OpTrace.Proofs.Decimal.Normal

/-!
# Rounding

A machine keeps 53 bits of a number. It shifts the bits behind them out, and it remembers of these
whether there was any. So the number that is kept lies less than one unit of its last bit beside the
exact one, and nothing is lost where no bit was shifted out. A whole number below `2 ^ 53` is kept
as it is, and a product of normal numbers is kept up to a unit of its last bit.
-/

namespace OpTrace

open Float.Model
open Float.Model.UnpackedFloat (ExtendedMantissa Accuracy roundWithAccuracy shiftToTargetExponent
  shiftToExponent decreaseExponent)

/-- A number is kept of an exact one on a grid: it is less than one step away from it. -/
structure IsRounded (exact step kept : ℚ) : Prop where
  onGrid : ∃ n : ℕ, kept = n * step
  near : |kept - exact| < step

namespace IsRounded

variable {exact step kept : ℚ}

theorem step_pos (h : IsRounded exact step kept) : 0 < step := (abs_nonneg _).trans_lt h.near

/-- What is on the grid and not below the exact number is not below the number that is kept. -/
theorem le_of_exact_le (h : IsRounded exact step kept) {n : ℕ} (hn : exact ≤ n * step) :
    kept ≤ n * step := by
  obtain ⟨m, rfl⟩ := h.onGrid
  have hnear := (abs_lt.mp h.near).2
  have hlt : (m : ℚ) * step < (n + 1 : ℕ) * step := by
    push_cast
    linarith
  have hle : m ≤ n := Nat.lt_succ_iff.mp (Nat.cast_lt.mp (lt_of_mul_lt_mul_right hlt h.step_pos.le))
  exact mul_le_mul_of_nonneg_right (Nat.cast_le.mpr hle) h.step_pos.le

/-- Whole numbers are on the grid of a unit that is not larger than one. -/
theorem le_natCast {unit : Int} (h : IsRounded exact (2 ^ unit) kept) (hunit : (2 : ℚ) ^ unit < 2)
    {n : ℕ} (hn : exact ≤ n) : kept ≤ n := by
  obtain ⟨places, rfl⟩ : ∃ places : Nat, unit = -(places : Int) := by
    have hone : (2 : ℚ) ^ unit < 2 ^ (1 : Int) := by rwa [zpow_one]
    have hsmall : unit < 1 := (zpow_lt_zpow_iff_right₀ one_lt_two).mp hone
    exact ⟨unit.natAbs, by omega⟩
  have hgrid : (n : ℚ) = (n * 2 ^ places : ℕ) * 2 ^ (-(places : Int)) := by
    rw [zpow_neg, zpow_natCast]
    push_cast
    field_simp
  rw [hgrid] at hn ⊢
  exact h.le_of_exact_le hn

end IsRounded

/-- Shifting halves the number again and again, and it is exact if all halves were whole. -/
theorem shiftRight_extendedMantissa (number places : Nat) :
    ((⟨number, false, false⟩ : ExtendedMantissa) >>> places).mantissa = number / 2 ^ places ∧
      (((⟨number, false, false⟩ : ExtendedMantissa) >>> places).roundBit = false ∧
        ((⟨number, false, false⟩ : ExtendedMantissa) >>> places).stickyBit = false ↔
          2 ^ places ∣ number) := by
  induction places with
  | zero => simp [HShiftRight.hShiftRight, Nat.repeat]
  | succ places ih =>
    have hstep : (⟨number, false, false⟩ : ExtendedMantissa) >>> (places + 1) =
        ((⟨number, false, false⟩ : ExtendedMantissa) >>> places).shiftRightOne := rfl
    obtain ⟨hmantissa, hexact⟩ := ih
    rw [hstep]
    refine ⟨?_, ?_⟩
    · rw [ExtendedMantissa.shiftRightOne, hmantissa, Nat.div_div_eq_div_mul, Nat.pow_succ]
    · simp only [ExtendedMantissa.shiftRightOne, hmantissa, Bool.or_eq_false_iff, hexact,
        bne_eq_false_iff_eq]
      constructor
      · rintro ⟨hhalf, hbefore⟩
        rw [Nat.pow_succ]
        exact (Nat.dvd_div_iff_mul_dvd hbefore).mp (Nat.dvd_of_mod_eq_zero hhalf)
      · intro hall
        have hbefore : 2 ^ places ∣ number := (pow_dvd_pow 2 places.le_succ).trans hall
        rw [Nat.pow_succ] at hall
        exact ⟨Nat.mod_eq_zero_of_dvd ((Nat.dvd_div_iff_mul_dvd hbefore).mpr hall), hbefore⟩

/-- At most one is added to what is left of a number, and nothing if no bit was shifted out. -/
theorem roundedMantissa_cases (shifted : ExtendedMantissa) :
    (shifted.roundBit = false ∧ shifted.stickyBit = false) ∧
        shifted.roundedMantissa = shifted.mantissa ∨
      ¬(shifted.roundBit = false ∧ shifted.stickyBit = false) ∧
        shifted.mantissa ≤ shifted.roundedMantissa ∧
          shifted.roundedMantissa ≤ shifted.mantissa + 1 := by
  obtain ⟨mantissa, roundBit, stickyBit⟩ := shifted
  cases roundBit <;> cases stickyBit <;>
    simp [ExtendedMantissa.roundedMantissa, ExtendedMantissa.accuracy, Accuracy.roundToNearestEven]
  omega

/-- What is kept of a number that is shifted is less than a unit away from it. -/
theorem roundedMantissa_shiftRight (number places : Nat) :
    let kept := ((⟨number, false, false⟩ : ExtendedMantissa) >>> places).roundedMantissa
    number < (kept + 1) * 2 ^ places ∧ kept * 2 ^ places < number + 2 ^ places := by
  obtain ⟨hmantissa, hexact⟩ := shiftRight_extendedMantissa number places
  have hunit : 0 < 2 ^ places := Nat.two_pow_pos places
  have habove : number < (number / 2 ^ places + 1) * 2 ^ places := by
    rw [Nat.mul_comm]
    exact Nat.lt_mul_div_succ number hunit
  intro kept
  rcases roundedMantissa_cases ((⟨number, false, false⟩ : ExtendedMantissa) >>> places) with
    ⟨hnone, hkept⟩ | ⟨hsome, hleast, hmost⟩
  · have hwhole : number / 2 ^ places * 2 ^ places = number :=
      Nat.div_mul_cancel (hexact.mp hnone)
    have hkept' : kept = number / 2 ^ places := hkept.trans hmantissa
    rw [hkept']
    exact ⟨habove, by omega⟩
  · rw [hmantissa] at hleast hmost
    have hpart : number / 2 ^ places * 2 ^ places ≠ number := fun heq ↦
      hsome (hexact.mpr ⟨_, heq.symm.trans (Nat.mul_comm ..)⟩)
    have hbelow : number / 2 ^ places * 2 ^ places < number :=
      lt_of_le_of_ne (Nat.div_mul_le_self ..) hpart
    constructor
    · exact habove.trans_le (Nat.mul_le_mul_right _ (Nat.succ_le_succ hleast))
    · calc
        kept * 2 ^ places ≤ (number / 2 ^ places + 1) * 2 ^ places := Nat.mul_le_mul_right _ hmost
        _ = number / 2 ^ places * 2 ^ places + 2 ^ places := Nat.succ_mul ..
        _ < number + 2 ^ places := Nat.add_lt_add_right hbelow _

theorem targetExponent_binary64 (total : Int) :
    Format.binary64.targetExponent total = max (total - 53) (-1074) := rfl

/-- A number with `places` bits too many is shifted by `places`. -/
theorem shiftToTargetExponent_eq {number places : Nat} {exponent : Int}
    (hlog : number.log2 = 52 + places) (hlow : -1074 ≤ exponent + places) :
    shiftToTargetExponent Format.binary64 number exponent .exact =
      ((⟨number, false, false⟩ : ExtendedMantissa) >>> places, exponent + places) := by
  have htarget : Format.binary64.targetExponent (totalExponent number exponent) =
      exponent + places := by
    rw [targetExponent_binary64, totalExponent, hlog]
    omega
  have hshift : (exponent + places - exponent).toNat = places := by omega
  simp only [shiftToTargetExponent, shiftToExponent, htarget, hshift]
  rfl

/-- Nothing is left to shift in a normal number. -/
theorem Normal.shiftToTargetExponent_eq (x : Normal) :
    shiftToTargetExponent Format.binary64 x.significand x.exponent .exact =
      (⟨x.significand, false, false⟩, x.exponent) := by
  have hlog : x.significand.log2 = 52 + 0 := x.log2_significand
  have hlow : -1074 ≤ x.exponent + (0 : Nat) := by simpa using x.le_exponent
  rw [OpTrace.shiftToTargetExponent_eq hlog hlow]
  simp [HShiftRight.hShiftRight, Nat.repeat]

/-- A normal number is kept as it is. -/
theorem Normal.roundWithAccuracy_eq (x : Normal) :
    roundWithAccuracy Format.binary64 .positive x.significand x.exponent .exact = x.unpacked := by
  have hkept : (⟨x.significand, false, false⟩ : ExtendedMantissa).roundedMantissa =
      x.significand := rfl
  simp only [roundWithAccuracy, x.shiftToTargetExponent_eq, hkept]
  rw [dif_neg x.significand_pos.ne']
  rfl

section Round

variable {number places : Nat} {exponent : Int}

/-- What is kept of a number with `places` bits too many has 53 bits, or it is the next power of
two. -/
theorem roundedMantissa_bounds (hlog : number.log2 = 52 + places) :
    let kept := ((⟨number, false, false⟩ : ExtendedMantissa) >>> places).roundedMantissa
    2 ^ 52 ≤ kept ∧ kept ≤ 2 ^ 53 := by
  obtain ⟨habove, hbelow⟩ := roundedMantissa_shiftRight number places
  have hpos : number ≠ 0 := by
    rintro rfl
    rw [Nat.log2_zero] at hlog
    omega
  obtain ⟨hlow, hhigh⟩ := (Nat.log2_eq_iff hpos).mp hlog
  rw [Nat.pow_add] at hlow
  rw [Nat.add_right_comm, Nat.pow_add] at hhigh
  constructor
  · exact Nat.lt_succ_iff.mp (Nat.lt_of_mul_lt_mul_right (hlow.trans_lt habove))
  · have hnext : 2 ^ 53 * 2 ^ places + 2 ^ places = (2 ^ 53 + 1) * 2 ^ places :=
      (Nat.succ_mul ..).symm
    refine Nat.lt_succ_iff.mp (Nat.lt_of_mul_lt_mul_right (hbelow.trans ?_))
    rw [← hnext]
    exact Nat.add_lt_add_right hhigh _

/-- A number of 53 bits is normal, and the next power of two is so once it is halved. -/
theorem exists_normal {kept : Nat} (hleast : 2 ^ 52 ≤ kept) (hmost : kept ≤ 2 ^ 53)
    (hlow : -1074 ≤ exponent) (hhigh : exponent ≤ 970) :
    ∃ x : Normal, x.value = kept * 2 ^ exponent ∧
      shiftToTargetExponent Format.binary64 kept exponent .exact =
        (⟨x.significand, false, false⟩, x.exponent) := by
  rcases Nat.lt_or_eq_of_le hmost with hlt | hnext
  · let x : Normal := ⟨kept, exponent, hleast, hlt, hlow, by omega⟩
    exact ⟨x, rfl, x.shiftToTargetExponent_eq⟩
  · let x : Normal :=
      ⟨2 ^ 52, exponent + 1, Nat.le_refl _, by decide, by omega, by omega⟩
    have hlog : kept.log2 = 52 + 1 := by rw [hnext, Nat.log2_two_pow]
    have hlow' : -1074 ≤ exponent + (1 : Nat) := by omega
    refine ⟨x, ?_, ?_⟩
    · have hhalf : ((2 ^ 53 : Nat) : ℚ) = (2 ^ 52 : Nat) * 2 := by norm_num
      rw [Normal.value, hnext, hhalf, zpow_add_one₀ two_ne_zero]
      ring
    · rw [shiftToTargetExponent_eq hlog hlow', hnext]
      rfl

/-- What is kept of a number is less than one unit of its last bit away from it. -/
theorem exists_roundWithAccuracy (exponent : Int) (hlog : number.log2 = 52 + places)
    (hlow : -1074 ≤ exponent + places) (hhigh : exponent + places ≤ 970) :
    ∃ x : Normal,
      roundWithAccuracy Format.binary64 .positive number exponent .exact = x.unpacked ∧
        IsRounded (number * 2 ^ exponent) (2 ^ (exponent + places)) x.value := by
  obtain ⟨habove, hbelow⟩ := roundedMantissa_shiftRight number places
  obtain ⟨hleast, hmost⟩ := roundedMantissa_bounds hlog
  obtain ⟨x, hvalue, hshift⟩ := exists_normal hleast hmost hlow hhigh
  generalize hkept : ((⟨number, false, false⟩ : ExtendedMantissa) >>> places).roundedMantissa =
    kept at *
  refine ⟨x, ?_, ?_⟩
  · simp only [roundWithAccuracy, shiftToTargetExponent_eq hlog hlow, hkept, hshift]
    rw [dif_neg x.significand_pos.ne']
    rfl
  · have hscale : (0 : ℚ) < 2 ^ exponent := zpow_pos two_pos _
    have hunit : (2 : ℚ) ^ (exponent + places) = 2 ^ places * 2 ^ exponent := by
      rw [zpow_add₀ two_ne_zero, zpow_natCast, mul_comm]
    have habove' : (number : ℚ) < (kept + 1) * 2 ^ places := by exact_mod_cast habove
    have hbelow' : (kept : ℚ) * 2 ^ places < number + 2 ^ places := by exact_mod_cast hbelow
    refine ⟨⟨kept, hvalue⟩, ?_⟩
    rw [hvalue, hunit, abs_lt]
    constructor
    · nlinarith
    · nlinarith

end Round

namespace Normal

theorem toFloat_mul_toFloat (x y : Normal) :
    x.toFloat * y.toFloat = .ofModel (.pack (roundWithAccuracy Format.binary64 .positive
      (x.significand * y.significand) (x.exponent + y.exponent) .exact)) := by
  have hunpack : x.toFloat * y.toFloat = .ofModel (.pack (UnpackedFloat.mul Format.binary64
      x.toFloat.toModel.unpack y.toFloat.toModel.unpack)) := rfl
  rw [hunpack, x.unpack_toFloat, y.unpack_toFloat]
  rfl

theorem value_mul_value (x y : Normal) : x.value * y.value =
    (x.significand * y.significand : Nat) * 2 ^ (x.exponent + y.exponent) := by
  rw [value, value, zpow_add₀ two_ne_zero]
  push_cast
  ring

/-- The product of normal numbers is kept up to a unit of its last bit, if it is neither too small
nor too large. -/
theorem exists_mul (x y : Normal) (hlow : -1126 ≤ x.exponent + y.exponent)
    (hhigh : x.exponent + y.exponent ≤ 917) :
    ∃ (z : Normal) (unit : Int), x.toFloat * y.toFloat = z.toFloat ∧
      2 ^ 52 * 2 ^ unit ≤ x.value * y.value ∧
      IsRounded (x.value * y.value) (2 ^ unit) z.value := by
  have hpos : x.significand * y.significand ≠ 0 :=
    (Nat.mul_pos x.significand_pos y.significand_pos).ne'
  have hleast : 2 ^ (52 + 52) ≤ x.significand * y.significand := by
    rw [Nat.pow_add]
    exact Nat.mul_le_mul x.le_significand y.le_significand
  have hmost : x.significand * y.significand < 2 ^ (53 + 53) := by
    rw [Nat.pow_add]
    exact Nat.mul_lt_mul'' x.significand_lt y.significand_lt
  have hlog : 104 ≤ (x.significand * y.significand).log2 := (Nat.le_log2 hpos).mpr hleast
  have hlog' : (x.significand * y.significand).log2 < 106 := (Nat.log2_lt hpos).mpr hmost
  obtain ⟨places, hplaces⟩ : ∃ places, (x.significand * y.significand).log2 = 52 + places :=
    Nat.exists_eq_add_of_le (by omega)
  obtain ⟨z, hround, hrounded⟩ := exists_roundWithAccuracy (x.exponent + y.exponent) hplaces
    (by omega) (by omega)
  refine ⟨z, x.exponent + y.exponent + places, ?_, ?_, ?_⟩
  · rw [toFloat_mul_toFloat, hround]
    rfl
  · have hbits : 2 ^ 52 * 2 ^ places ≤ x.significand * y.significand := by
      rw [← Nat.pow_add, ← hplaces]
      exact Nat.log2_self_le hpos
    rw [value_mul_value, zpow_add₀ two_ne_zero _ (places : Int), zpow_natCast]
    have hbits' : (2 : ℚ) ^ 52 * 2 ^ places ≤ (x.significand * y.significand : Nat) := by
      exact_mod_cast hbits
    have hscale : (0 : ℚ) ≤ 2 ^ (x.exponent + y.exponent) := zpow_nonneg two_pos.le _
    calc
      (2 : ℚ) ^ 52 * (2 ^ (x.exponent + y.exponent) * 2 ^ places) =
          2 ^ 52 * 2 ^ places * 2 ^ (x.exponent + y.exponent) := by ring
      _ ≤ _ := mul_le_mul_of_nonneg_right hbits' hscale
  · rw [value_mul_value]
    exact hrounded

def ofNat (number : Nat) (hpos : 0 < number) (hlt : number < 2 ^ 53) : Normal where
  significand := number <<< (52 - number.log2)
  exponent := number.log2 - 52
  le_significand := by
    have hlog : number.log2 < 53 := (Nat.log2_lt hpos.ne').mpr hlt
    have hbits : 52 = number.log2 + (52 - number.log2) := by omega
    rw [Nat.shiftLeft_eq]
    nth_rewrite 1 [hbits]
    rw [Nat.pow_add]
    exact Nat.mul_le_mul_right _ (Nat.log2_self_le hpos.ne')
  significand_lt := by
    have hlog : number.log2 < 53 := (Nat.log2_lt hpos.ne').mpr hlt
    have hbits : 53 = number.log2 + 1 + (52 - number.log2) := by omega
    rw [Nat.shiftLeft_eq, hbits, Nat.pow_add]
    exact Nat.mul_lt_mul_of_pos_right Nat.lt_log2_self (Nat.two_pow_pos _)
  le_exponent := by omega
  exponent_le := by
    have hlog : number.log2 < 53 := (Nat.log2_lt hpos.ne').mpr hlt
    omega

theorem toFloat_toUInt64 {number : Nat} (hpos : 0 < number) (hlt : number < 2 ^ 53) :
    number.toUInt64.toFloat =
      .ofModel (.pack (UnpackedFloat.round Format.binary64 .positive number 0)) := by
  have hsize : 2 ^ 53 < UInt64.size := by decide
  have hnumber : number.toUInt64.toNat = number := UInt64.toNat_ofNat_of_lt' (hlt.trans hsize)
  have hcompare : compare (number : Int) 0 = .gt := Int.compare_eq_gt.mpr (by omega)
  have hconvert : number.toUInt64.toFloat = .ofModel (.pack (UnpackedFloat.normalize Format.binary64
      (number.toUInt64.toNat : Int) 0 .positive)) := rfl
  rw [hconvert, hnumber, UnpackedFloat.normalize, hcompare]
  rfl

section OfNat

variable {number : Nat} (hpos : 0 < number) (hlt : number < 2 ^ 53)

/-- A whole number below `2 ^ 53` is kept as it is. -/
theorem toFloat_ofNat : (ofNat number hpos hlt).toFloat = number.toUInt64.toFloat := by
  have hlog : number.log2 < 53 := (Nat.log2_lt hpos.ne').mpr hlt
  have htarget : Format.binary64.targetExponent (totalExponent number 0) = number.log2 - 52 := by
    rw [targetExponent_binary64, totalExponent]
    omega
  have hdecrease : decreaseExponent number 0 (number.log2 - 52) =
      ((ofNat number hpos hlt).significand, (ofNat number hpos hlt).exponent) := by
    have hshift : ((0 : Int) - (number.log2 - 52)).toNat = 52 - number.log2 := by omega
    have hexponent : (0 : Int) - (52 - number.log2 : Nat) = number.log2 - 52 := by omega
    rw [decreaseExponent, hshift, hexponent]
    rfl
  rw [toFloat_toUInt64 hpos hlt, UnpackedFloat.round, htarget]
  simp only [hdecrease, roundWithAccuracy_eq]
  rfl

theorem value_ofNat : (ofNat number hpos hlt).value = number := by
  have hlog : number.log2 < 53 := (Nat.log2_lt hpos.ne').mpr hlt
  have hexponent : (number.log2 : Int) - 52 = -(52 - number.log2 : Nat) := by omega
  have hvalue : (ofNat number hpos hlt).value =
      (number <<< (52 - number.log2) : Nat) * 2 ^ ((number.log2 : Int) - 52) := rfl
  rw [hvalue, hexponent, Nat.shiftLeft_eq, zpow_neg, zpow_natCast]
  push_cast
  field_simp

theorem exponent_ofNat_bounds :
    -52 ≤ (ofNat number hpos hlt).exponent ∧ (ofNat number hpos hlt).exponent ≤ 0 := by
  have hlog : number.log2 < 53 := (Nat.log2_lt hpos.ne').mpr hlt
  have hexponent : (ofNat number hpos hlt).exponent = number.log2 - 52 := rfl
  omega

end OfNat

end Normal

end OpTrace

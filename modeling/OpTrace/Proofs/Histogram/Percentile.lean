import Mathlib.Algebra.Order.BigOperators.Group.List
import Mathlib.Data.List.GetD
import Mathlib.Order.Bounds.Basic
import OpTrace.Histogram.Basic
import OpTrace.Proofs.StableOrder

/-!
# Percentiles

In a sorted list the values that do not exceed a bound are the first ones, so the value at a place
does not exceed a bound exactly if more values than that do not. The nearest rank of a percentile is
the first place where these are enough of all values. This makes the percentile of a list the least
of its values that enough of them do not exceed, with no mention of an order or a rank.
-/

namespace OpTrace

/-- The value at a place of a sorted list does not exceed a bound if more values than that do
not. -/
theorem getElem_le_iff_lt_countP {values : List Int} (h : values.Pairwise (· ≤ ·)) {place : Nat}
    (hplace : place < values.length) (bound : Int) :
    values[place] ≤ bound ↔ place < values.countP (· ≤ bound) := by
  induction h generalizing place with
  | nil => exact absurd hplace (Nat.not_lt_zero place)
  | @cons first rest hfirst _ ih =>
    by_cases hle : first ≤ bound
    · rw [List.countP_cons_of_pos (by simpa using hle)]
      cases place with
      | zero => exact iff_of_true hle (Nat.succ_pos _)
      | succ place => rw [List.getElem_cons_succ, ih, Nat.succ_lt_succ_iff]
    · -- nothing behind a value above the bound is below it
      have habove {value : Int} (hvalue : value ∈ first :: rest) : ¬value ≤ bound := by
        rcases List.mem_cons.mp hvalue with rfl | hvalue
        · exact hle
        · exact fun hbound ↦ hle ((hfirst value hvalue).trans hbound)
      have hnone : (first :: rest).countP (· ≤ bound) = 0 :=
        List.countP_eq_zero.mpr fun value hvalue ↦ by simpa using habove hvalue
      exact iff_of_false (habove (List.getElem_mem _)) (by omega)

section NearestRank

variable {percent count : Nat}

theorem one_le_nearestRank (percent count : Nat) : 1 ≤ nearestRank percent count :=
  Nat.le_max_left ..

theorem nearestRank_le (percent : Nat) (hcount : 0 < count) : nearestRank percent count ≤ count :=
  Nat.max_le.mpr ⟨hcount, Nat.min_le_left ..⟩

/-- The nearest rank of a percentile is the least number that is enough of all. -/
theorem nearestRank_le_iff (hpos : 0 < percent) (hle : percent ≤ 100) (hcount : 0 < count)
    (rank : Nat) : nearestRank percent count ≤ rank ↔ percent * count ≤ 100 * rank := by
  have hsome : 0 < percent * count := Nat.mul_pos hpos hcount
  have hall : percent * count ≤ 100 * count := Nat.mul_le_mul_right count hle
  simp only [nearestRank]
  omega

end NearestRank

/-- The percentile of values: the least of them that `percent` in a hundred do not exceed. -/
def IsPercentile (values : List Int) (percent : Nat) (value : Int) : Prop :=
  IsLeast {value | value ∈ values ∧ percent * values.length ≤ 100 * values.countP (· ≤ value)} value

namespace IsPercentile

variable {values other : List Int} {percent percent' : Nat} {value value' : Int}

theorem mem (h : IsPercentile values percent value) : value ∈ values := h.1.1

/-- The order of the values makes no difference. -/
theorem of_perm (h : IsPercentile values percent value) (hperm : values.Perm other) :
    IsPercentile other percent value := by
  simpa only [IsPercentile, hperm.mem_iff, hperm.length_eq, hperm.countP_eq] using h

/-- A larger percentile is no smaller value. -/
theorem le_of_le (h : IsPercentile values percent value) (h' : IsPercentile values percent' value')
    (hle : percent ≤ percent') : value ≤ value' :=
  h.2 ⟨h'.mem, (Nat.mul_le_mul_right values.length hle).trans h'.1.2⟩

end IsPercentile

section Percentile

variable {sorted : List Int} {percent : Nat}

theorem percentile_eq_getElem (percent : Nat) (hsome : 0 < sorted.length) :
    ∃ hplace : nearestRank percent sorted.length - 1 < sorted.length,
      percentile sorted percent = sorted[nearestRank percent sorted.length - 1] := by
  have hplace : nearestRank percent sorted.length - 1 < sorted.length := by
    have hlow := one_le_nearestRank percent sorted.length
    have hhigh := nearestRank_le percent hsome
    omega
  exact ⟨hplace, List.getD_eq_getElem _ _ hplace⟩

/-- A value is not below the percentile exactly if enough of all values do not exceed it. -/
theorem percentile_le_iff (hsorted : sorted.Pairwise (· ≤ ·)) (hpos : 0 < percent)
    (hle : percent ≤ 100) (hsome : 0 < sorted.length) (bound : Int) :
    percentile sorted percent ≤ bound ↔
      percent * sorted.length ≤ 100 * sorted.countP (· ≤ bound) := by
  obtain ⟨hplace, hvalue⟩ := percentile_eq_getElem percent hsome
  have hrank := one_le_nearestRank percent sorted.length
  rw [hvalue, getElem_le_iff_lt_countP hsorted, ← nearestRank_le_iff hpos hle hsome]
  omega

/-- The value at the nearest rank is the percentile. -/
theorem isPercentile_percentile (hsorted : sorted.Pairwise (· ≤ ·)) (hpos : 0 < percent)
    (hle : percent ≤ 100) (hsome : 0 < sorted.length) :
    IsPercentile sorted percent (percentile sorted percent) := by
  have hmem : percentile sorted percent ∈ sorted := by
    obtain ⟨hplace, hvalue⟩ := percentile_eq_getElem percent hsome
    rw [hvalue]
    exact List.getElem_mem hplace
  have henough := percentile_le_iff hsorted hpos hle hsome
  exact ⟨⟨hmem, (henough _).mp le_rfl⟩, fun value hvalue ↦ (henough value).mpr hvalue.2⟩

end Percentile

end OpTrace

import OpTrace.Decimal.Text
import OpTrace.Proofs.Text.Markup

/-!
# Numbers in markup

Whole numbers and binary numbers are written with the characters of names, so no bracket comes from
them.
-/

namespace OpTrace

theorem isName_append {front back : List Char} :
    isName (front ++ back) ↔ isName front ∧ isName back := by
  rw [isName, List.all_append, Bool.and_eq_true, isName, isName]

theorem isName_of_subset {part text : List Char} (h : isName text) (hpart : part ⊆ text) :
    isName part :=
  List.all_eq_true.mpr fun c hc ↦ List.all_eq_true.mp h c (hpart hc)

theorem isName_digitsOf (n : Nat) : isName (digitsOf n) := by
  apply List.all_eq_true.mpr
  intro c hc
  have hdigit : c.isDigit := Nat.isDigit_of_mem_toDigits (by decide) (by decide) hc
  simp [isNameChar, Char.isAlphanum, hdigit]

theorem isName_nat (n : Nat) : isName (toString n).toList := by
  rw [Nat.toString_eq_repr, Nat.toList_repr]
  exact isName_digitsOf n

theorem isName_int (i : Int) : isName (toString i).toList := by
  cases i with
  | ofNat n => exact isName_nat n
  | negSucc n =>
    have hwrite : (toString (Int.negSucc n)).toList = '-' :: (toString (n + 1)).toList := by
      simp [toString, Int.repr]
    rw [hwrite]
    exact isName_append.mpr ⟨(by decide : isName ['-']), isName_nat (n + 1)⟩

theorem isName_placed (digits places : Nat) : isName (placed digits places) := by
  let written := digitsOf digits
  let padded := List.replicate (places + 1 - written.length) '0' ++ written
  have hpadded : isName padded := by
    apply isName_append.mpr ⟨?_, isName_digitsOf digits⟩
    apply List.all_eq_true.mpr
    intro c hc
    rw [List.eq_of_mem_replicate hc]
    rfl
  have hwhole := isName_of_subset hpadded (List.take_subset (padded.length - places) padded)
  have hrest := isName_of_subset hpadded (List.drop_subset (padded.length - places) padded)
  have hpoint := isName_append.mpr ⟨(by decide : isName ['.']), hrest⟩
  unfold placed
  by_cases hnone : places = 0
  · exact (if_pos hnone).symm ▸ hwhole
  · exact (if_neg hnone).symm ▸ isName_append.mpr ⟨hwhole, hpoint⟩

theorem isName_signed (x : Binary64) {size : List Char} (h : isName size) :
    isName (x.signed size).toList := by
  have hsign : isName (if x.isNegative then ['-'] else []) := by split <;> decide
  have hsize := isName_append.mpr ⟨hsign, h⟩
  have hinf := isName_append.mpr ⟨hsign, (by decide : isName "inf".toList)⟩
  rw [Binary64.signed]
  by_cases hfinite : x.isFinite
  · rwa [if_pos hfinite, String.toList_ofList]
  · rw [if_neg hfinite]
    by_cases hfraction : x.fraction = 0
    · rwa [if_pos hfraction, String.toList_ofList]
    · rw [if_neg hfraction]
      decide

/-- A binary number with a given number of places is written with the characters of names. -/
theorem isName_fixed (x : Binary64) (places : Nat) : isName (x.fixed places).toList :=
  isName_signed x (isName_placed _ places)

end OpTrace

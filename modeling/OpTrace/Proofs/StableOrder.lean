import Mathlib.Data.List.Pairwise

/-!
# Sorting by a key

Sorting a list by a key puts its members in the order of their keys, and members of one key stay in
their order. Only one list has these two properties, so a list is sorted as soon as it has them.
-/

namespace OpTrace

variable {α : Type} {key : α → Int} {l l' : List α}

/-- A list is sorted by keys if the comparison of its members goes by keys. -/
theorem pairwise_mergeSort_key {le : α → α → Bool}
    (hle : ∀ a ∈ l, ∀ b ∈ l, le a b = decide (key a ≤ key b)) :
    (l.mergeSort le).Pairwise fun a b ↦ key a ≤ key b := by
  have hmap : (l.mergeSort le).map key = (l.map key).mergeSort fun a b ↦ decide (a ≤ b) :=
    List.map_mergeSort hle
  have hsorted := @List.pairwise_mergeSort Int (fun a b ↦ decide (a ≤ b))
    (fun a b c hab hbc ↦ by simp at *; omega) (fun a b ↦ by simp; omega) (l.map key)
  rw [← hmap, List.pairwise_map] at hsorted
  simpa using hsorted

/-- Sorting leaves the members of one key in their order. -/
theorem filter_mergeSort_key (l : List α) (k : Int) :
    (l.mergeSort fun a b ↦ key a ≤ key b).filter (key · = k) = l.filter (key · = k) := by
  have hsame : (l.filter (key · = k)).Pairwise fun a b ↦ decide (key a ≤ key b) = true := by
    refine List.pairwise_of_forall_mem_list fun a ha b hb ↦ ?_
    have ha := (List.mem_filter.mp ha).2
    have hb := (List.mem_filter.mp hb).2
    simp only [decide_eq_true_eq] at ha hb ⊢
    omega
  have hsub : (l.filter (key · = k)).Sublist (l.mergeSort fun a b ↦ key a ≤ key b) :=
    List.sublist_mergeSort (fun a b c hab hbc ↦ by simp at *; omega) (fun a b ↦ by simp; omega)
      hsame List.filter_sublist
  have hkept := hsub.filter (key · = k)
  rw [List.filter_filter] at hkept
  simp only [Bool.and_self] at hkept
  exact (hkept.eq_of_length ((List.mergeSort_perm l _).filter _).length_eq.symm).symm

/-- Members that have a key in one list have it in the other. -/
theorem mem_of_filter_key_eq (h : ∀ k, l.filter (key · = k) = l'.filter (key · = k)) {a : α}
    (ha : a ∈ l) : a ∈ l' := by
  have hkept : a ∈ l'.filter (key · = key a) := by
    rw [← h]
    simp [ha]
  exact (List.mem_filter.mp hkept).1

/-- A list in the order of keys is determined by the members of each key, in their order. -/
theorem eq_of_filter_key_eq (hl : l.Pairwise fun a b ↦ key a ≤ key b)
    (hl' : l'.Pairwise fun a b ↦ key a ≤ key b)
    (h : ∀ k, l.filter (key · = k) = l'.filter (key · = k)) : l = l' := by
  induction l generalizing l' with
  | nil => exact (List.eq_nil_iff_forall_not_mem.mpr fun a ha ↦
      nomatch mem_of_filter_key_eq (fun k ↦ (h k).symm) ha).symm
  | cons a rest ih =>
    cases l' with
    | nil => exact nomatch mem_of_filter_key_eq h List.mem_cons_self
    | cons a' rest' =>
      obtain ⟨ha, hrest⟩ := List.pairwise_cons.mp hl
      obtain ⟨ha', hrest'⟩ := List.pairwise_cons.mp hl'
      -- each of the two first members is somewhere in the other list, so they have the same key
      have hle : key a' ≤ key a := by
        rcases List.mem_cons.mp (mem_of_filter_key_eq h List.mem_cons_self) with rfl | hlater
        · exact Int.le_refl _
        · exact ha' a hlater
      have hge : key a ≤ key a' := by
        rcases List.mem_cons.mp (mem_of_filter_key_eq (fun k ↦ (h k).symm) List.mem_cons_self) with
          rfl | hlater
        · exact Int.le_refl _
        · exact ha a' hlater
      have hkey : key a' = key a := Int.le_antisymm hle hge
      have hsame := h (key a)
      rw [List.filter_cons_of_pos (by simp), List.filter_cons_of_pos (by simpa using hkey)] at hsame
      obtain ⟨rfl, hlater⟩ := List.cons.inj hsame
      rw [ih hrest hrest' fun k ↦ ?_]
      by_cases hk : key a = k
      · exact hk ▸ hlater
      · simpa [hk] using h k

end OpTrace

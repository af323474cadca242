import Mathlib.Data.List.Infix

/-!
# Angle brackets

A text opens and closes angle brackets, and what it opens beyond what it closes is its nesting. In
a balanced text the nesting never falls below zero and ends there. Between a bracket that opens and
one that closes, a balanced text gives one that is known to end only where it does.
-/

namespace OpTrace

/-- What a character adds to the nesting of a text. -/
def bracket (c : Char) : Int := if c = '<' then 1 else if c = '>' then -1 else 0

/-- How many angle brackets a text opens beyond those that it closes. -/
def nesting : List Char → Int
  | [] => 0
  | c :: text => bracket c + nesting text

@[simp] theorem nesting_nil : nesting [] = 0 := rfl

@[simp] theorem nesting_cons (c : Char) (text : List Char) :
    nesting (c :: text) = bracket c + nesting text := rfl

@[simp] theorem nesting_append (front back : List Char) :
    nesting (front ++ back) = nesting front + nesting back := by
  induction front with
  | nil => rw [List.nil_append, nesting_nil, Int.zero_add]
  | cons c front ih => rw [List.cons_append, nesting_cons, ih, nesting_cons, Int.add_assoc]

/-- A text without brackets has no nesting. -/
theorem nesting_eq_zero {text : List Char} (h : '<' ∉ text) (h' : '>' ∉ text) :
    nesting text = 0 := by
  induction text with
  | nil => rfl
  | cons c text ih =>
    rw [List.mem_cons, not_or] at h h'
    rw [nesting_cons, ih h.2 h'.2, bracket, if_neg (Ne.symm h.1), if_neg (Ne.symm h'.1),
      Int.add_zero]

/-- A text closes all brackets that it opens, and no others. -/
structure Balanced (text : List Char) : Prop where
  nonneg : ∀ place, 0 ≤ nesting (text.take place)
  closes : nesting text = 0

/-- A text between two brackets that belong together: its nesting is positive from the first of
them on, and comes down to zero at the last. -/
structure IsBracketed (text : List Char) : Prop where
  opens : text.head? = some '<'
  inside : ∀ place, 0 < place → place < text.length → 0 < nesting (text.take place)
  closes : nesting text = 0

namespace Balanced

variable {front back text : List Char}

theorem append (h : Balanced front) (h' : Balanced back) : Balanced (front ++ back) where
  nonneg place := by
    rw [List.take_append, nesting_append]
    exact Int.add_nonneg (h.nonneg place) (h'.nonneg _)
  closes := by rw [nesting_append, h.closes, h'.closes, Int.add_zero]

theorem of_notMem (h : '<' ∉ text) (h' : '>' ∉ text) : Balanced text where
  nonneg place := by
    have hzero := nesting_eq_zero (fun hin ↦ h (List.mem_of_mem_take hin))
      fun hin ↦ h' (List.mem_of_mem_take (i := place) hin)
    exact Int.le_of_eq hzero.symm
  closes := nesting_eq_zero h h'

/-- Brackets around a balanced text belong together. -/
theorem isBracketed (h : Balanced text) : IsBracketed ('<' :: (text ++ ['>'])) where
  opens := rfl
  inside place hpos hlt := by
    obtain ⟨before, rfl⟩ := Nat.exists_eq_add_of_lt hpos
    have hle : 0 + before ≤ text.length := by
      simp only [List.length_cons, List.length_append, List.length_nil] at hlt
      omega
    rw [List.take_succ_cons, List.take_append_of_le_length hle, nesting_cons]
    have hinner := h.nonneg (0 + before)
    have hopen : bracket '<' = 1 := rfl
    omega
  closes := by
    have hends : bracket '<' + bracket '>' = 0 := rfl
    rw [nesting_cons, nesting_append, h.closes, Int.zero_add, nesting_cons, nesting_nil,
      Int.add_zero, hends]

end Balanced

theorem IsBracketed.balanced {text : List Char} (h : IsBracketed text) : Balanced text where
  nonneg place := by
    rcases Nat.eq_zero_or_pos place with rfl | hpos
    · exact Int.le_refl 0
    · rcases Nat.lt_or_ge place text.length with hlt | hge
      · exact Int.le_of_lt (h.inside place hpos hlt)
      · exact Int.le_of_eq (by rw [List.take_of_length_le hge, h.closes])
  closes := h.closes

end OpTrace

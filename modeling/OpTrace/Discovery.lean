/-!
# What is left to discover

A walk through finitely many places ends because each step either discovers a place or takes one
off the list of places to look at. `undiscovered` counts the places that are left; the lemmas say
that it never grows, and that it shrinks when a place is discovered.
-/

namespace OpTrace

variable {α : Type} [DecidableEq α]

/-- How many of the places are not known. -/
def undiscovered (places known : List α) : Nat := places.countP fun place ↦ place ∉ known

theorem undiscovered_cons (place : α) (places known : List α) :
    undiscovered (place :: places) known =
      undiscovered places known + if place ∈ known then 0 else 1 := by
  simp only [undiscovered, List.countP_cons]
  split <;> simp_all

/-- Knowing more never leaves more to discover. -/
theorem undiscovered_append_le (places known more : List α) :
    undiscovered places (known ++ more) ≤ undiscovered places known := by
  induction places with
  | nil => simp [undiscovered]
  | cons first rest ih =>
    simp only [undiscovered_cons, List.mem_append]
    by_cases hf : first ∈ known
    · simp [hf, ih]
    · by_cases hm : first ∈ more <;> simp [hf, hm] <;> omega

/-- Discovering a place leaves less to discover. -/
theorem undiscovered_append_lt {places known more : List α} {place : α} (hplace : place ∈ places)
    (hknown : place ∉ known) (hmore : place ∈ more) :
    undiscovered places (known ++ more) < undiscovered places known := by
  induction places with
  | nil => simp at hplace
  | cons first rest ih =>
    have hle := undiscovered_append_le rest known more
    simp only [undiscovered_cons, List.mem_append]
    rcases List.mem_cons.mp hplace with rfl | hrest
    · simp only [hknown, hmore, or_true, if_true, if_false]
      omega
    · have := ih hrest
      by_cases hf : first ∈ known
      · simp [hf, this]
      · by_cases hm : first ∈ more <;> simp [hf, hm] <;> omega

end OpTrace

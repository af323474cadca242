import Mathlib.Data.List.Infix
import OpTrace.Event.Marker

/-!
# Spellings of markers

A marker can be spelled with its label in front of the fragment or behind it, joined by any number
of underscores, and each spelling is read as that marker. So the two ends of an interval agree on
its label however each of them is spelled. A name that holds neither fragment is no marker, and
every other name is one.

The reader looks for the first place where a fragment stands, and for the start fragment before the
other. A fragment that stood anywhere else in a spelling would overlap the one that was put there.
But no fragment begins inside a fragment or ends inside one, and none begins or ends with an
underscore, so it would have to lie inside the label.
-/

namespace OpTrace

theorem splitAround_eq_none {fragment text : List Char} :
    splitAround fragment text = none ↔ ¬ fragment <:+: text := by
  induction text with
  | nil => simp [splitAround]
  | cons c rest ih =>
    rw [splitAround, List.infix_cons_iff, ← List.isPrefixOf_iff_prefix]
    split
    · next hfirst => simp [hfirst]
    · next hfirst => simp [hfirst, ih]

/-- The text is split around the fragment that was put into it, if none stands before or overlaps
it from the front. -/
theorem splitAround_append {fragment before : List Char}
    (h : ¬ fragment <:+: before ++ fragment.dropLast) (behind : List Char) :
    splitAround fragment (before ++ fragment ++ behind) = some (before, behind) := by
  induction before with
  | nil =>
    cases fragment with
    | nil => exact absurd (List.nil_infix) h
    | cons c rest => simp [splitAround, List.isPrefixOf_iff_prefix]
  | cons c before ih =>
    have hlater : ¬ fragment <:+: before ++ fragment.dropLast := fun hin ↦
      h (List.infix_cons hin)
    have hfirst : ¬ fragment <+: c :: (before ++ fragment ++ behind) := by
      intro hprefix
      have hearly : c :: (before ++ fragment.dropLast) <+: c :: (before ++ fragment ++ behind) := by
        rw [List.cons_prefix_cons, List.append_assoc, List.prefix_append_right_inj]
        exact ⟨rfl, (List.dropLast_prefix fragment).trans (List.prefix_append fragment behind)⟩
      refine h (List.prefix_of_prefix_length_le hprefix hearly ?_).isInfix
      simp only [List.length_cons, List.length_append, List.length_dropLast]
      omega
    simp only [List.cons_append, splitAround]
    rw [if_neg (by rwa [List.isPrefixOf_iff_prefix]), ih hlater]
    rfl

theorem trimFront_eq_self {text : List Char} (h : text.head? ≠ some '_') :
    trimFront text = text := by
  cases text with
  | nil => rfl
  | cons c rest =>
    have hc : c ≠ '_' := by simpa using h
    simp [trimFront, hc]

theorem trimFront_underscores_append (joints : Nat) (text : List Char) :
    trimFront (List.replicate joints '_' ++ text) = trimFront text := by
  apply List.dropWhile_append_of_pos
  intro c hc
  simpa using List.eq_of_mem_replicate hc

theorem trimEnd_append_underscores (text : List Char) (joints : Nat) :
    trimEnd (text ++ List.replicate joints '_') = trimEnd text := by
  rw [trimEnd, List.reverse_append, List.reverse_replicate, trimFront_underscores_append, trimEnd]

theorem trimEnd_eq_self {text : List Char} (h : text.getLast? ≠ some '_') :
    trimEnd text = text := by
  rw [trimEnd, trimFront_eq_self (by rwa [List.head?_reverse]), List.reverse_reverse]

namespace MarkerEdge

theorem eq_of_infix_fragment {edge other : MarkerEdge} (h : edge.fragment <:+: other.fragment) :
    edge = other := by
  revert h
  cases edge <;> cases other <;> decide

/-- No fragment begins inside a fragment and reaches beyond it. -/
theorem not_take_suffix (edge other : MarkerEdge) : ∀ place < edge.fragment.length, 0 < place →
    ¬ edge.fragment.take place <:+ other.fragment := by
  cases edge <;> cases other <;> decide

/-- No fragment begins before a fragment and ends inside it. -/
theorem not_drop_prefix (edge other : MarkerEdge) : ∀ place < edge.fragment.length, 0 < place →
    ¬ edge.fragment.drop place <+: other.fragment := by
  cases edge <;> cases other <;> decide

theorem not_infix_dropLast (edge : MarkerEdge) : ¬ edge.fragment <:+: edge.fragment.dropLast := by
  cases edge <;> decide

theorem exists_mem_take_ne (edge : MarkerEdge) : ∀ place < edge.fragment.length, 0 < place →
    ∃ c ∈ edge.fragment.take place, c ≠ '_' := by
  have hany : ∀ place < edge.fragment.length, 0 < place →
      (edge.fragment.take place).any (· ≠ '_') := by cases edge <;> decide
  intro place hlt hpos
  obtain ⟨c, hc, hne⟩ := List.any_eq_true.mp (hany place hlt hpos)
  exact ⟨c, hc, of_decide_eq_true hne⟩

theorem exists_mem_drop_ne (edge : MarkerEdge) : ∀ place < edge.fragment.length,
    ∃ c ∈ edge.fragment.drop place, c ≠ '_' := by
  have hany : ∀ place < edge.fragment.length,
      (edge.fragment.drop place).any (· ≠ '_') := by cases edge <;> decide
  intro place hlt
  obtain ⟨c, hc, hne⟩ := List.any_eq_true.mp (hany place hlt)
  exact ⟨c, hc, of_decide_eq_true hne⟩

variable {edge other : MarkerEdge} {front back : List Char}

/-- A fragment in a text of two parts stands in one of them, or some of it ends the first part and
the rest begins the second. -/
theorem infix_append_cases (h : edge.fragment <:+: front ++ back) :
    edge.fragment <:+: front ∨ edge.fragment <:+: back ∨
      ∃ place < edge.fragment.length, 0 < place ∧ edge.fragment.take place <:+ front ∧
        edge.fragment.drop place <+: back := by
  rcases List.infix_append_iff.mp h with hfront | hback | ⟨head, tail, heq, hhead, htail⟩
  · exact .inl hfront
  · exact .inr (.inl hback)
  · have htake : edge.fragment.take head.length = head := by rw [heq, List.take_left]
    have hdrop : edge.fragment.drop head.length = tail := by rw [heq, List.drop_left]
    rcases Nat.eq_zero_or_pos head.length with hnone | hpos
    · rw [List.eq_nil_of_length_eq_zero hnone, List.nil_append] at heq
      exact .inr (.inl (heq ▸ htail.isInfix))
    · rcases Nat.lt_or_ge head.length edge.fragment.length with hlt | hge
      · exact .inr (.inr ⟨head.length, hlt, hpos, htake.symm ▸ hhead, hdrop.symm ▸ htail⟩)
      · rw [List.take_of_length_le hge] at htake
        exact .inl (htake ▸ hhead.isInfix)

theorem not_infix_underscores (edge : MarkerEdge) (joints : Nat) :
    ¬ edge.fragment <:+: List.replicate joints '_' := by
  intro h
  obtain ⟨c, hc, hne⟩ := edge.exists_mem_drop_ne 0 (by cases edge <;> decide)
  exact hne (List.eq_of_mem_replicate (h.subset hc))

theorem infix_of_infix_append_underscores {joints : Nat}
    (h : edge.fragment <:+: front ++ List.replicate joints '_') : edge.fragment <:+: front := by
  rcases infix_append_cases h with hfront | hjoints | ⟨place, hlt, -, -, hdrop⟩
  · exact hfront
  · exact absurd hjoints (edge.not_infix_underscores joints)
  · obtain ⟨c, hc, hne⟩ := edge.exists_mem_drop_ne place hlt
    exact absurd (List.eq_of_mem_replicate (hdrop.subset hc)) hne

theorem infix_of_infix_underscores_append {joints : Nat}
    (h : edge.fragment <:+: List.replicate joints '_' ++ back) : edge.fragment <:+: back := by
  rcases infix_append_cases h with hjoints | hback | ⟨place, hlt, hpos, htake, -⟩
  · exact absurd hjoints (edge.not_infix_underscores joints)
  · exact hback
  · obtain ⟨c, hc, hne⟩ := edge.exists_mem_take_ne place hlt hpos
    exact absurd (List.eq_of_mem_replicate (htake.subset hc)) hne

/-- Behind a text, the front of a fragment brings in no other fragment. -/
theorem infix_of_infix_append_prefix (hback : back <+: other.fragment)
    (h : edge.fragment <:+: front ++ back) :
    edge.fragment <:+: front ∨ edge.fragment <:+: back := by
  rcases infix_append_cases h with hfront | hin | ⟨place, hlt, hpos, -, hdrop⟩
  · exact .inl hfront
  · exact .inr hin
  · exact absurd (hdrop.trans hback) (edge.not_drop_prefix other place hlt hpos)

/-- In front of a text, a fragment brings in itself alone. -/
theorem infix_of_infix_fragment_append (h : edge.fragment <:+: other.fragment ++ back) :
    edge = other ∨ edge.fragment <:+: back := by
  rcases infix_append_cases h with hfront | hin | ⟨place, hlt, hpos, htake, -⟩
  · exact .inl (eq_of_infix_fragment hfront)
  · exact .inr hin
  · exact absurd htake (edge.not_take_suffix other place hlt hpos)

end MarkerEdge

namespace Marker

/-- The marker's label, some underscores, and its fragment. -/
def labelFirst (marker : Marker) (joints : Nat) : String :=
  String.ofList (marker.label.toList ++ List.replicate joints '_' ++ marker.edge.fragment)

/-- The marker's fragment, some underscores, and its label. -/
def fragmentFirst (marker : Marker) (joints : Nat) : String :=
  String.ofList (marker.edge.fragment ++ List.replicate joints '_' ++ marker.label.toList)

/-- A label that can be told from what it is joined to: it is not empty, holds no fragment, and has
no underscore at either end. -/
structure Joinable (label : String) : Prop where
  ne_empty : label ≠ ""
  free : ∀ edge : MarkerEdge, ¬ edge.fragment <:+: label.toList
  front : label.toList.head? ≠ some '_'
  back : label.toList.getLast? ≠ some '_'

variable {marker : Marker} {name : List Char}

theorem Joinable.toList_ne_nil {label : String} (h : Joinable label) : label.toList ≠ [] := by
  intro hnil
  exact h.ne_empty (String.toList_eq_nil_iff.mp hnil)

theorem ofEdge?_eq_none {edge : MarkerEdge} :
    ofEdge? edge name = none ↔ ¬ edge.fragment <:+: name := by
  rw [ofEdge?, Option.map_eq_none_iff, splitAround_eq_none]

theorem ofEdge?_of_splitAround {edge : MarkerEdge} {before behind : List Char}
    (h : splitAround edge.fragment name = some (before, behind)) :
    ofEdge? edge name = some { edge, label := String.ofList (labelAround before behind) } := by
  rw [ofEdge?, h]
  rfl

/-- A name is read as the marker that one edge finds in it, if it holds no other fragment. -/
theorem ofName?_of_ofEdge? (h : ofEdge? marker.edge name = some marker)
    (hother : ∀ edge : MarkerEdge, edge.fragment <:+: name → edge = marker.edge) :
    ofName? (String.ofList name) = some marker := by
  rw [ofName?, String.toList_ofList]
  cases hedge : marker.edge with
  | start =>
    rw [hedge] at h
    rw [h, Option.some_or]
  | finish =>
    have hnone : ofEdge? .start name = none := by
      rw [ofEdge?_eq_none]
      intro hin
      exact absurd ((hother .start hin).trans hedge) (by decide)
    rw [hedge] at h
    rw [hnone, h, Option.none_or]

theorem ofName?_labelFirst (h : Joinable marker.label) (joints : Nat) :
    ofName? (marker.labelFirst joints) = some marker := by
  let joined := marker.label.toList ++ List.replicate joints '_'
  have hjoined (edge : MarkerEdge) : ¬ edge.fragment <:+: joined := fun hin ↦
    h.free edge (MarkerEdge.infix_of_infix_append_underscores hin)
  apply ofName?_of_ofEdge?
  · have hearly : ¬ marker.edge.fragment <:+: joined ++ marker.edge.fragment.dropLast := by
      intro hin
      rcases MarkerEdge.infix_of_infix_append_prefix (List.dropLast_prefix _) hin with hin | hin
      · exact hjoined _ hin
      · exact marker.edge.not_infix_dropLast hin
    have hsplit := splitAround_append hearly []
    rw [List.append_nil] at hsplit
    have htrim : trimEnd joined = marker.label.toList := by
      rw [trimEnd_append_underscores, trimEnd_eq_self h.back]
    rw [ofEdge?_of_splitAround hsplit, labelAround, htrim, if_neg h.toList_ne_nil,
      String.ofList_toList]
  · intro edge hin
    rcases MarkerEdge.infix_of_infix_append_prefix List.prefix_rfl hin with hin | hin
    · exact absurd hin (hjoined edge)
    · exact MarkerEdge.eq_of_infix_fragment hin

theorem ofName?_fragmentFirst (h : Joinable marker.label) (joints : Nat) :
    ofName? (marker.fragmentFirst joints) = some marker := by
  let joined := List.replicate joints '_' ++ marker.label.toList
  have hname : marker.edge.fragment ++ List.replicate joints '_' ++ marker.label.toList =
      marker.edge.fragment ++ joined := List.append_assoc _ _ _
  rw [fragmentFirst, hname]
  apply ofName?_of_ofEdge?
  · have hsplit : splitAround marker.edge.fragment (marker.edge.fragment ++ joined) =
        some ([], joined) :=
      @splitAround_append _ [] marker.edge.not_infix_dropLast joined
    have htrim : trimFront joined = marker.label.toList := by
      rw [trimFront_underscores_append, trimFront_eq_self h.front]
    have hnone : trimEnd [] = [] := rfl
    rw [ofEdge?_of_splitAround hsplit, labelAround, if_pos hnone, htrim, String.ofList_toList]
  · intro edge hin
    rcases MarkerEdge.infix_of_infix_fragment_append hin with heq | hin
    · exact heq
    · exact absurd (MarkerEdge.infix_of_infix_underscores_append hin) (h.free edge)

/-- Every spelling of a marker is read as that marker, and what is read as none is what holds no
fragment. -/
theorem ofName?_spellings :
    (∀ marker : Marker, Joinable marker.label → ∀ joints,
      ofName? (marker.labelFirst joints) = some marker ∧
        ofName? (marker.fragmentFirst joints) = some marker) ∧
    ∀ name : String, ofName? name = none ↔
      ∀ edge : MarkerEdge, ¬ edge.fragment <:+: name.toList := by
  refine ⟨fun marker h joints ↦ ⟨ofName?_labelFirst h joints, ofName?_fragmentFirst h joints⟩, ?_⟩
  intro name
  rw [ofName?, Option.or_eq_none_iff, ofEdge?_eq_none, ofEdge?_eq_none]
  constructor
  · rintro ⟨hstart, hfinish⟩ edge
    cases edge
    · exact hstart
    · exact hfinish
  · exact fun h ↦ ⟨h .start, h .finish⟩

/-- A label that looks like the front of a fragment is told from the fragment that follows it or
goes before it. -/
theorem ofName?_spellings_of_lookalike :
    let marker : Marker := { edge := .finish, label := "attr_time_st" }
    Joinable marker.label ∧ ofName? (marker.labelFirst 0) = some marker ∧
      ofName? (marker.fragmentFirst 2) = some marker := by
  have hlabel : Joinable "attr_time_st" :=
    ⟨by decide, by intro edge; cases edge <;> decide, by decide, by decide⟩
  have hread := ofName?_spellings.1 { edge := .finish, label := "attr_time_st" } hlabel
  exact ⟨hlabel, (hread 0).1, (hread 2).2⟩

end Marker

end OpTrace

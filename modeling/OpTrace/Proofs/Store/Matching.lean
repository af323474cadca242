import Mathlib.Data.List.TakeWhile
import OpTrace.Store.Cell

/-!
# What patterns match

A list of items matches a list if the list can be cut so that each run takes any part of it and
each other item takes one member. This says which lists match and nothing about how that is found
out. The search from the front up to the first run, and the table of verdicts on all rests from
there on, decide it.

A database searches the letters of a text, which are numbers. Three characters have no letter of
their own: a zero ends the letters, and two more are replaced. A pattern and a tag without these
match as letters exactly if they match as characters.
-/

namespace OpTrace

namespace Glyph

variable {α β : Type}

/-- The items match the whole list. -/
inductive Matches : List (Glyph α) → List α → Prop where
  /-- nothing is left of either -/
  | nil : Matches [] []
  /-- a run takes some members -/
  | run (taken : List α) {glyphs : List (Glyph α)} {rest : List α} :
    Matches glyphs rest → Matches (.run :: glyphs) (taken ++ rest)
  /-- any member will do -/
  | any (a : α) {glyphs : List (Glyph α)} {rest : List α} :
    Matches glyphs rest → Matches (.any :: glyphs) (a :: rest)
  /-- the member has to be this one -/
  | lit (a : α) {glyphs : List (Glyph α)} {rest : List α} :
    Matches glyphs rest → Matches (.lit a :: glyphs) (a :: rest)

namespace Matches

variable {glyphs : List (Glyph α)} {tag : List α}

@[simp] theorem nil_iff : Matches [] tag ↔ tag = [] := by
  constructor
  · rintro ⟨⟩
    rfl
  · rintro rfl
    exact .nil

@[simp] theorem any_nil : ¬Matches (.any :: glyphs) [] := by
  rintro ⟨⟩

@[simp] theorem any_cons {d : α} : Matches (.any :: glyphs) (d :: tag) ↔ Matches glyphs tag := by
  constructor
  · rintro (_ | _ | ⟨_, h⟩)
    exact h
  · exact .any d

@[simp] theorem lit_nil {c : α} : ¬Matches (.lit c :: glyphs) [] := by
  rintro ⟨⟩

@[simp] theorem lit_cons {c d : α} :
    Matches (.lit c :: glyphs) (d :: tag) ↔ c = d ∧ Matches glyphs tag := by
  constructor
  · rintro (_ | _ | _ | ⟨_, h⟩)
    exact ⟨rfl, h⟩
  · rintro ⟨rfl, h⟩
    exact .lit c h

theorem run_iff :
    Matches (.run :: glyphs) tag ↔ ∃ taken rest, taken ++ rest = tag ∧ Matches glyphs rest := by
  constructor
  · rintro (_ | ⟨taken, h⟩)
    exact ⟨taken, _, rfl, h⟩
  · rintro ⟨taken, rest, rfl, h⟩
    exact .run taken h

@[simp] theorem run_nil : Matches (.run :: glyphs) [] ↔ Matches glyphs [] := by
  simp [run_iff, and_assoc]

/-- A run takes nothing, or it takes the first member and goes on. -/
@[simp] theorem run_cons {d : α} :
    Matches (.run :: glyphs) (d :: tag) ↔
      Matches glyphs (d :: tag) ∨ Matches (.run :: glyphs) tag := by
  rw [run_iff, run_iff]
  constructor
  · rintro ⟨_ | ⟨_, taken⟩, rest, htag, h⟩
    · exact .inl (htag ▸ h)
    · exact .inr ⟨taken, rest, (List.cons.inj htag).2, h⟩
  · rintro (h | ⟨taken, rest, rfl, h⟩)
    · exact ⟨[], _, rfl, h⟩
    · exact ⟨d :: taken, rest, rfl, h⟩

end Matches

/-- One verdict for each rest of a list, the whole list first. -/
inductive Judged (glyphs : List (Glyph α)) : List α → List Bool → Prop where
  | nil {verdict : Bool} : (verdict = true ↔ Matches glyphs []) → Judged glyphs [] [verdict]
  | cons {d : α} {tag : List α} {verdict : Bool} {verdicts : List Bool} :
    (verdict = true ↔ Matches glyphs (d :: tag)) → Judged glyphs tag verdicts →
      Judged glyphs (d :: tag) (verdict :: verdicts)

namespace Judged

variable {glyphs : List (Glyph α)} {tag : List α} {verdicts : List Bool}

/-- The first verdict is on the whole list. -/
theorem exists_cons (h : Judged glyphs tag verdicts) :
    ∃ verdict rest, verdicts = verdict :: rest ∧ (verdict = true ↔ Matches glyphs tag) := by
  cases h with
  | nil hverdict => exact ⟨_, _, rfl, hverdict⟩
  | cons hverdict _ => exact ⟨_, _, rfl, hverdict⟩

theorem headD (h : Judged glyphs tag verdicts) :
    verdicts.headD false = true ↔ Matches glyphs tag := by
  obtain ⟨verdict, rest, rfl, hverdict⟩ := h.exists_cons
  exact hverdict

theorem empty (tag : List α) :
    Judged ([] : List (Glyph α)) tag (tag.map (fun _ ↦ false) ++ [true]) := by
  induction tag with
  | nil => exact .nil (by simp)
  | cons d tag ih => exact .cons (by simp) ih

theorem someLater (h : Judged glyphs tag verdicts) :
    Judged (run :: glyphs) tag (someLater verdicts) := by
  induction h with
  | nil hverdict => exact .nil (by simp [hverdict, Glyph.someLater])
  | cons hverdict _ ih =>
    exact .cons (by rw [Bool.or_eq_true, hverdict, ih.headD, Matches.run_cons]) ih

theorem any (h : Judged glyphs tag verdicts) :
    Judged (any :: glyphs) tag (verdicts.drop 1 ++ [false]) := by
  induction h with
  | nil _ => exact .nil (by simp)
  | cons _ h ih =>
    obtain ⟨verdict, rest, rfl, hverdict⟩ := h.exists_cons
    exact .cons (by simp [hverdict]) ih

theorem lit [BEq α] [LawfulBEq α] (c : α) (h : Judged glyphs tag verdicts) :
    Judged (lit c :: glyphs) tag
      (List.zipWith (fun d verdict ↦ c == d && verdict) tag (verdicts.drop 1) ++ [false]) := by
  induction h with
  | nil _ => exact .nil (by simp)
  | cons _ h ih =>
    obtain ⟨verdict, rest, rfl, hverdict⟩ := h.exists_cons
    exact .cons (by simp [hverdict]) ih

end Judged

section Search

variable [BEq α] [LawfulBEq α]

/-- One more item in front keeps the verdicts right. -/
theorem Judged.prepend {glyphs : List (Glyph α)} {tag : List α} {verdicts : List Bool}
    (glyph : Glyph α) (h : Judged glyphs tag verdicts) :
    Judged (glyph :: glyphs) tag (prepend tag glyph verdicts) := by
  cases glyph with
  | run => exact h.someLater
  | any => exact h.any
  | lit c => exact h.lit c

theorem judged_verdicts (tag : List α) (glyphs : List (Glyph α)) :
    Judged glyphs tag (verdicts tag glyphs) := by
  induction glyphs with
  | nil => exact .empty tag
  | cons glyph glyphs ih => exact ih.prepend glyph

/-- Items are accepted on a list exactly if they match it. -/
theorem accept_iff {glyphs : List (Glyph α)} {tag : List α} :
    accept glyphs tag = true ↔ Matches glyphs tag := by
  fun_induction accept glyphs tag with
  | case1 tag => simp
  | case2 glyphs tag => exact (judged_verdicts tag _).headD
  | case3 glyphs d tag ih => simp [ih]
  | case4 c glyphs d tag ih => simp [ih]
  | case5 glyph glyphs hrun =>
    cases glyph with
    | run => exact (hrun rfl).elim
    | any => simp
    | lit c => simp

end Search

/-- The item with another member to stand for. -/
def map (f : α → β) : Glyph α → Glyph β
  | run => run
  | any => any
  | lit a => lit (f a)

/-- Matching depends only on which members are equal. -/
theorem matches_map {f : α → β} (hf : ∀ a b, f a = f b ↔ a = b) {glyphs : List (Glyph α)}
    {tag : List α} : Matches (glyphs.map (map f)) (tag.map f) ↔ Matches glyphs tag := by
  induction glyphs generalizing tag with
  | nil => simp
  | cons glyph glyphs ih =>
    induction tag with
    | nil =>
      cases glyph with
      | run => simpa [map] using @ih []
      | any => simp [map]
      | lit c => simp [map]
    | cons d tag ihtag =>
      cases glyph with
      | run => simpa [map] using or_congr (@ih (d :: tag)) ihtag
      | any => simpa [map] using ih
      | lit c => simpa [map, hf] using fun _ ↦ ih

end Glyph

/-- A tag in memory is tested for what it matches. -/
theorem TagPattern.matchesTag_iff {pattern : TagPattern} {tag : String} :
    pattern.matchesTag tag = true ↔
      Glyph.Matches pattern.glyphs (tag.toList.map Char.toLower) :=
  Glyph.accept_iff

namespace Letter

/-- Has the character a letter of its own? -/
def isProper (c : Char) : Bool := c ≠ '\x00' ∧ c.toNat ≠ 0xFFFE ∧ c.toNat ≠ 0xFFFF

theorem mend_toNat {c : Char} (h : isProper c = true) : mend c.toNat = c.toNat := by
  have hvalid : c.toNat < 0xD800 ∨ 0xDFFF < c.toNat ∧ c.toNat < 0x110000 := c.valid
  have := (of_decide_eq_true h).2
  unfold mend
  split
  · omega
  · rfl

theorem ofText_eq_map {text : String} (h : text.toList.all isProper = true) :
    ofText text = text.toList.map Char.toNat := by
  have hproper : ∀ c ∈ text.toList, isProper c = true := List.all_eq_true.mp h
  have hall : text.toList.takeWhile (· ≠ '\x00') = text.toList :=
    List.takeWhile_eq_self_iff.mpr fun c hc ↦
      decide_eq_true (of_decide_eq_true (hproper c hc)).1
  rw [ofText, hall]
  exact List.map_congr_left fun c hc ↦ mend_toNat (hproper c hc)

theorem lower_toNat (c : Char) : lower c.toNat = c.toLower.toNat := by
  unfold lower Char.toLower
  by_cases h : c.val ≥ 'A'.val ∧ c.val ≤ 'Z'.val
  · have hnat : 'A'.toNat ≤ c.toNat ∧ c.toNat ≤ 'Z'.toNat := h
    rw [dif_pos h, if_pos hnat]
    have hsum : (c.val + ('a'.val - 'A'.val)).toNat = (c.toNat + 32) % 2 ^ 32 := rfl
    have hupper : c.toNat ≤ 90 := h.2
    exact (hsum.trans (Nat.mod_eq_of_lt (by omega))).symm
  · have hnat : ¬('A'.toNat ≤ c.toNat ∧ c.toNat ≤ 'Z'.toNat) := h
    rw [dif_neg h, if_neg hnat]

theorem toGlyph_toNat (c : Char) : toGlyph c.toNat = (Glyph.ofChar c).map Char.toNat := by
  unfold toGlyph Glyph.ofChar
  simp only [Char.toNat_inj, lower_toNat]
  split
  · rfl
  · split <;> rfl

end Letter

/-- A database tests a text for what it matches, if all characters have letters. -/
theorem Cell.isMatched_text_iff {pattern : TagPattern} {tag : String}
    (hpattern : pattern.text.toList.all Letter.isProper = true)
    (htag : tag.toList.all Letter.isProper = true) :
    (Cell.text tag).isMatched pattern = true ↔
      Glyph.Matches pattern.glyphs (tag.toList.map Char.toLower) := by
  have hglyphs : (Letter.ofText pattern.text).map Letter.toGlyph =
      pattern.glyphs.map (Glyph.map Char.toNat) := by
    simp [Letter.ofText_eq_map hpattern, TagPattern.glyphs, TagPattern.glyphsOf,
      Letter.toGlyph_toNat]
  have hletters : (Letter.ofText tag).map Letter.lower =
      (tag.toList.map Char.toLower).map Char.toNat := by
    simp [Letter.ofText_eq_map htag, Letter.lower_toNat]
  calc
    (Cell.text tag).isMatched pattern = true ↔
        Glyph.accept (pattern.glyphs.map (Glyph.map Char.toNat))
          ((tag.toList.map Char.toLower).map Char.toNat) = true := by
      rw [← hglyphs, ← hletters]
      rfl
    _ ↔ Glyph.Matches (pattern.glyphs.map (Glyph.map Char.toNat))
        ((tag.toList.map Char.toLower).map Char.toNat) := Glyph.accept_iff
    _ ↔ Glyph.Matches pattern.glyphs (tag.toList.map Char.toLower) :=
      Glyph.matches_map fun _ _ ↦ Char.toNat_inj

end OpTrace

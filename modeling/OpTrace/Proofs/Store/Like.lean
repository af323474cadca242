import OpTrace.Proofs.Store.Expression

/-!
# Texts that are like a pattern

A text is like a pattern if the two can be read side by side to their ends, where `%` passes over
any run of characters, `_` over exactly one, and every other character of the pattern over one that
is the same up to the case of ASCII letters. This speaks of the characters themselves, while a
pattern is kept as items and can be written as an expression; all three say the same.

Every text but the empty one spells a pattern, unless its automaton takes too much memory, and the
pattern matches the tags that are like the text.
-/

namespace OpTrace

/-- The text is like the pattern, from the front of both to their ends. -/
inductive Like : List Char → List Char → Prop where
  /-- the empty pattern is like the empty text alone -/
  | nil : Like [] []
  /-- any run of characters, also an empty one -/
  | percent (taken : List Char) {pattern rest : List Char} :
    Like pattern rest → Like ('%' :: pattern) (taken ++ rest)
  /-- exactly one character -/
  | underscore (d : Char) {pattern rest : List Char} :
    Like pattern rest → Like ('_' :: pattern) (d :: rest)
  /-- one character that is the same once ASCII letters are in lower case -/
  | same {c d : Char} {pattern rest : List Char} (hpercent : c ≠ '%') (hunderscore : c ≠ '_')
    (hlower : c.toLower = d.toLower) : Like pattern rest → Like (c :: pattern) (d :: rest)

theorem Glyph.ofChar_of_ne {c : Char} (hpercent : c ≠ '%') (hunderscore : c ≠ '_') :
    ofChar c = .lit c.toLower := by
  rw [ofChar, if_neg hpercent, if_neg hunderscore]

namespace Like

variable {pattern text : List Char}

theorem matches_ofChar (h : Like pattern text) :
    Glyph.Matches (pattern.map Glyph.ofChar) (text.map Char.toLower) := by
  induction h with
  | nil => exact .nil
  | percent taken _ ih =>
    rw [List.map_append]
    exact .run _ ih
  | underscore d _ ih => exact .any _ ih
  | same hpercent hunderscore hlower _ ih =>
    rw [List.map_cons, List.map_cons, Glyph.ofChar_of_ne hpercent hunderscore, hlower]
    exact .lit _ ih

theorem of_matches (h : Glyph.Matches (pattern.map Glyph.ofChar) (text.map Char.toLower)) :
    Like pattern text := by
  induction pattern generalizing text with
  | nil =>
    obtain rfl : text = [] := by simpa using h
    exact .nil
  | cons c pattern ih =>
    rw [List.map_cons] at h
    by_cases hpercent : c = '%'
    · subst hpercent
      obtain ⟨taken, rest, htext, hrest⟩ := Glyph.Matches.run_iff.mp h
      obtain ⟨before, behind, rfl, -, rfl⟩ := List.append_eq_map_iff.mp htext
      exact .percent before (ih hrest)
    · cases text with
      | nil =>
        by_cases hunderscore : c = '_'
        · subst hunderscore
          exact absurd h Glyph.Matches.any_nil
        · rw [Glyph.ofChar_of_ne hpercent hunderscore] at h
          exact absurd h Glyph.Matches.lit_nil
      | cons d text =>
        by_cases hunderscore : c = '_'
        · subst hunderscore
          exact .underscore d (ih (Glyph.Matches.any_cons.mp h))
        · rw [Glyph.ofChar_of_ne hpercent hunderscore, List.map_cons,
            Glyph.Matches.lit_cons] at h
          exact .same hpercent hunderscore h.1 (ih h.2)

/-- The items of a pattern match the texts that are like it. -/
theorem iff_matches :
    Like pattern text ↔ Glyph.Matches (pattern.map Glyph.ofChar) (text.map Char.toLower) :=
  ⟨matches_ofChar, of_matches⟩

/-- A pattern without wildcards is like the texts that differ from it in case only. -/
theorem iff_of_exact (h : ∀ c ∈ pattern, c ≠ '%' ∧ c ≠ '_') :
    Like pattern text ↔ pattern.map Char.toLower = text.map Char.toLower := by
  rw [iff_matches]
  induction pattern generalizing text with
  | nil => simp [eq_comm]
  | cons c pattern ih =>
    obtain ⟨⟨hpercent, hunderscore⟩, hrest⟩ := List.forall_mem_cons.mp h
    cases text with
    | nil => simp [Glyph.ofChar_of_ne hpercent hunderscore]
    | cons d text => simp [Glyph.ofChar_of_ne hpercent hunderscore, ih hrest]

end Like

namespace TagPattern

/-- The pattern matches the tags that are like its text. -/
structure MatchesLike (pattern : TagPattern) : Prop where
  matched : ∀ tag : String,
    pattern.matchesTag tag = true ↔ Like pattern.text.toList tag.toList
  /-- the same tags, in lower case, are those in which the expression of the pattern is found -/
  found : ∃ parts, Expression.read? pattern.expression = some parts ∧ ∀ tag : String,
    Expression.OccursIn parts (tag.toList.map Char.toLower) ↔ Like pattern.text.toList tag.toList
  /-- without wildcards they differ from the text in the case of ASCII letters only -/
  exact : pattern.isExact = true → ∀ tag : String, pattern.matchesTag tag = true ↔
    pattern.text.toList.map Char.toLower = tag.toList.map Char.toLower

theorem matchesLike (pattern : TagPattern) : pattern.MatchesLike := by
  have hmatched (tag : String) : pattern.matchesTag tag = true ↔
      Like pattern.text.toList tag.toList := matchesTag_iff.trans Like.iff_matches.symm
  refine ⟨hmatched, ⟨_, pattern.read?_expression, fun tag ↦ ?_⟩, fun hexact tag ↦ ?_⟩
  · exact Expression.occursIn_whole_iff.trans Like.iff_matches.symm
  · have hletters : ∀ c ∈ pattern.text.toList, c ≠ '%' ∧ c ≠ '_' := by
      simpa [isExact] using hexact
    exact (hmatched tag).trans (Like.iff_of_exact hletters)

theorem ofText_of_size_le {text : String} (hne : text ≠ "")
    (hsize : textSize text ≤ Glyph.sizeBound) : ofText text = .ok ⟨text, hne⟩ := by
  rw [ofText, dif_neg hne, if_neg (Nat.not_lt.mpr hsize)]

/-- Every text that is not empty spells a pattern, if the automaton for it can be built, and the
pattern matches the tags that are like the text. -/
theorem exists_ofText_like {text : String} (hne : text ≠ "")
    (hsize : textSize text ≤ Glyph.sizeBound) :
    ∃ pattern, ofText text = .ok pattern ∧ pattern.text = text ∧ pattern.MatchesLike :=
  ⟨⟨text, hne⟩, ofText_of_size_le hne hsize, rfl, matchesLike _⟩

/-- A run, one character, a letter in upper case and a character with a meaning in expressions stand
side by side. -/
theorem exists_ofText_like_of_mixed :
    "%_D.x" ≠ "" ∧ textSize "%_D.x" ≤ Glyph.sizeBound ∧
      ∃ pattern, ofText "%_D.x" = .ok pattern ∧ pattern.text = "%_D.x" ∧ pattern.MatchesLike :=
  ⟨by decide, by decide, exists_ofText_like (by decide) (by decide)⟩

end TagPattern

end OpTrace

import OpTrace.Proofs.Breakdown.Tally

/-!
# Why time is counted or not

The ledger is not part of a breakdown, but the attributions say all that it held. Counted time is
booked under its tag for the clearance operation, a duplicate is booked for the descendant itself,
and uncategorised time is not booked. So each attribution follows from those before it: its time
is counted if neither its clearance operation nor its destination is booked for its tag, and else
it is a duplicate of the first of the two that is.

In particular the time that waits for one operation is counted at most once under each tag.
-/

namespace OpTrace

/-- The tag of the attribution is the one with the category at a place of the table. -/
def Attribution.Placed (table : CategoryTable) (attribution : Attribution) (tag : String)
    (index : Nat) : Prop :=
  attribution.smTag = some tag ∧ table.classify tag = some index

/-- The attribution books time of the operation under the tag. -/
def Attribution.Books (attribution : Attribution) (tag : String) (opid : OpId) : Prop :=
  attribution.smTag = some tag ∧
    (attribution.outcome.isCounted = true ∧ attribution.clr = opid ∨
      attribution.outcome.isDuplicate = true ∧ attribution.opid = opid)

/-- One of the attributions books time of the operation under the tag. -/
def Booked (earlier : List Attribution) (tag : String) (opid : OpId) : Prop :=
  ∃ attribution ∈ earlier, attribution.Books tag opid

theorem booked_concat {earlier : List Attribution} {attribution : Attribution} {tag : String}
    {opid : OpId} : Booked (earlier ++ [attribution]) tag opid ↔
      Booked earlier tag opid ∨ attribution.Books tag opid := by
  simp [Booked, or_and_right, exists_or]

/-- The outcome of an attribution follows from the attributions before it. -/
structure Explained (table : CategoryTable) (earlier : List Attribution)
    (attribution : Attribution) : Prop where
  uncategorised_iff : attribution.outcome = .uncategorised ↔
    attribution.smTag.bind table.classify = none
  counted_iff : ∀ tag index, attribution.Placed table tag index →
    (attribution.outcome = .counted (table.nameAt index) ↔
      ¬ Booked earlier tag attribution.clr ∧ ¬ Booked earlier tag attribution.dst)
  of_clr : ∀ tag index, attribution.Placed table tag index → Booked earlier tag attribution.clr →
    attribution.outcome = .duplicate (table.nameAt index) ⟨tag, attribution.clr⟩
  of_dst : ∀ tag index, attribution.Placed table tag index →
    ¬ Booked earlier tag attribution.clr → Booked earlier tag attribution.dst →
      attribution.outcome = .duplicate (table.nameAt index) ⟨tag, attribution.dst⟩

namespace Explained

variable {table : CategoryTable} {earlier : List Attribution} {attribution : Attribution}
  {tag : String} {index : Nat}

/-- An attribution with a category is explained if each of the three situations leads to its
outcome. -/
theorem of_placed (hplaced : attribution.Placed table tag index)
    (hclr : Booked earlier tag attribution.clr →
      attribution.outcome = .duplicate (table.nameAt index) ⟨tag, attribution.clr⟩)
    (hdst : ¬ Booked earlier tag attribution.clr → Booked earlier tag attribution.dst →
      attribution.outcome = .duplicate (table.nameAt index) ⟨tag, attribution.dst⟩)
    (hfree : ¬ Booked earlier tag attribution.clr → ¬ Booked earlier tag attribution.dst →
      attribution.outcome = .counted (table.nameAt index)) :
    Explained table earlier attribution := by
  have hunique (other : String) (place : Nat) (h : attribution.Placed table other place) :
      other = tag ∧ place = index := by
    obtain rfl := Option.some.inj (hplaced.1.symm.trans h.1)
    exact ⟨rfl, (Option.some.inj (hplaced.2.symm.trans h.2)).symm⟩
  refine ⟨?_, ?_, ?_, ?_⟩
  · have hsome : attribution.smTag.bind table.classify = some index := by
      rw [hplaced.1, Option.bind_some, hplaced.2]
    rw [hsome]
    grind
  all_goals
    intro other place h
    obtain ⟨rfl, rfl⟩ := hunique other place h
  · grind
  · exact hclr
  · exact hdst

/-- Time that is not uncategorised has a category. -/
theorem exists_placed (h : Explained table earlier attribution)
    (houtcome : attribution.outcome ≠ .uncategorised) :
    ∃ tag index, attribution.Placed table tag index := by
  cases hplace : attribution.smTag.bind table.classify with
  | none => exact absurd (h.uncategorised_iff.mpr hplace) houtcome
  | some index =>
    obtain ⟨tag, htag, hindex⟩ := Option.bind_eq_some_iff.mp hplace
    exact ⟨tag, index, htag, hindex⟩

/-- What has a destination that is booked for its tag is a duplicate. -/
theorem isDuplicate_of_booked_dst (h : Explained table earlier attribution)
    (hplaced : attribution.Placed table tag index) (hbooked : Booked earlier tag attribution.dst) :
    attribution.outcome.isDuplicate = true := by
  by_cases hclr : Booked earlier tag attribution.clr
  · rw [h.of_clr tag index hplaced hclr]
    rfl
  · rw [h.of_dst tag index hplaced hclr hbooked]
    rfl

/-- Counted time was not booked for its clearance operation. -/
theorem not_booked_clr (h : Explained table earlier attribution)
    (hcounted : attribution.outcome.isCounted = true) (htag : attribution.smTag = some tag) :
    ¬ Booked earlier tag attribution.clr := by
  intro hbooked
  obtain ⟨own, index, hplaced⟩ := h.exists_placed (Outcome.ne_of_isCounted hcounted)
  obtain rfl := Option.some.inj (htag.symm.trans hplaced.1)
  rw [h.of_clr tag index hplaced hbooked] at hcounted
  cases hcounted

end Explained

/-- Each of the attributions follows from those before it. -/
def AllExplained (table : CategoryTable) (attributions : List Attribution) : Prop :=
  ∀ earlier attribution, earlier ++ [attribution] <+: attributions →
    Explained table earlier attribution

namespace AllExplained

variable {table : CategoryTable} {attributions : List Attribution} {attribution : Attribution}

theorem concat (h : AllExplained table attributions)
    (hlast : Explained table attributions attribution) :
    AllExplained table (attributions ++ [attribution]) := by
  intro earlier other hinitial
  rcases List.prefix_concat_iff.mp hinitial with heq | hbefore
  · obtain ⟨rfl, hother⟩ := List.append_inj' heq rfl
    obtain rfl := List.singleton_inj.mp hother
    exact hlast
  · exact h earlier other hbefore

/-- No clearance operation has time counted twice under one tag. -/
theorem pairwise_counted (h : AllExplained table attributions) :
    attributions.Pairwise fun first second ↦ first.outcome.isCounted = true →
      second.outcome.isCounted = true → (first.smTag, first.clr) ≠ (second.smTag, second.clr) := by
  induction attributions using List.reverseRecOn with
  | nil => exact .nil
  | append_singleton attributions last ih =>
    have hbefore := ih fun earlier attribution hinitial ↦
      h earlier attribution (hinitial.trans (List.prefix_append _ _))
    have hlast := h attributions last (List.prefix_refl _)
    refine List.pairwise_append.mpr ⟨hbefore, List.pairwise_singleton _ _, ?_⟩
    rintro first hfirst _ hsecond hcounted hcounted' hsame
    obtain rfl := List.mem_singleton.mp hsecond
    obtain ⟨htag, hclr⟩ := Prod.mk.inj hsame
    obtain ⟨tag, index, hplaced⟩ := hlast.exists_placed (Outcome.ne_of_isCounted hcounted')
    -- the earlier attribution books just what the last one would have to find free
    exact hlast.not_booked_clr hcounted' hplaced.1
      ⟨first, hfirst, htag.trans hplaced.1, .inl ⟨hcounted, hclr⟩⟩

end AllExplained

namespace Ledger

variable {ledger : Ledger} {tag : String} {row : MapRow}

theorem match?_eq_none : ledger.match? tag row = none ↔
    ¬ ledger.contains tag row.clr = true ∧ ¬ ledger.contains tag row.dst = true := by
  unfold match?
  grind

theorem match?_eq_some {key : LedgerKey} : ledger.match? tag row = some key ↔
    ledger.contains tag row.clr = true ∧ key = ⟨tag, row.clr⟩ ∨
      ¬ ledger.contains tag row.clr = true ∧ ledger.contains tag row.dst = true ∧
        key = ⟨tag, row.dst⟩ := by
  unfold match?
  grind

end Ledger

namespace Tally

section Step

variable {table : CategoryTable} {tally next : Tally} {row : MapRow} {span : Span}
  {tag category : String} {opid : OpId}

@[simp] theorem not_books_uncategorised : ¬ (record row span .uncategorised).Books tag opid := by
  simp [Attribution.Books, record, Outcome.isCounted, Outcome.isDuplicate]

@[simp] theorem books_counted : (record row span (.counted category)).Books tag opid ↔
    tagOf row span = some tag ∧ row.clr = opid := by
  simp [Attribution.Books, record, Outcome.isCounted, Outcome.isDuplicate]

@[simp] theorem books_duplicate {matched : LedgerKey} :
    (record row span (.duplicate category matched)).Books tag opid ↔
      tagOf row span = some tag ∧ row.src = opid := by
  simp [Attribution.Books, record, Outcome.isCounted, Outcome.isDuplicate]

/-- The ledger holds what the attributions book. -/
def Mirrors (tally : Tally) : Prop :=
  ∀ tag opid, tally.ledger.contains tag opid = true ↔ Booked tally.attributions tag opid

theorem Mirrors.book (h : tally.Mirrors) {attribution : Attribution} {booked : OpId}
    (hbooks : ∀ other opid, attribution.Books other opid ↔ other = tag ∧ opid = booked)
    (other : String) (opid : OpId) :
    (tally.ledger.book tag booked).contains other opid = true ↔
      Booked (tally.attributions ++ [attribution]) other opid := by
  rw [Ledger.contains_book, booked_concat, hbooks, h, or_comm]

/-- Each step books what its attribution says. -/
theorem Mirrors.of_assigned (h : tally.Mirrors) (hnext : Assigned table tally row span next) :
    next.Mirrors := by
  cases hnext with
  | uncategorised hplace =>
    intro other opid
    simpa [booked_concat] using h other opid
  | counted htag hindex hmatch =>
    exact h.book fun other opid ↦ books_counted.trans (by simp [htag, eq_comm])
  | duplicate htag hindex hmatch =>
    exact h.book fun other opid ↦ books_duplicate.trans (by simp [htag, eq_comm])

/-- Each step adds an attribution that follows from those before it. -/
theorem Mirrors.explained (h : tally.Mirrors) (hnext : Assigned table tally row span next) :
    ∃ attribution, next.attributions = tally.attributions ++ [attribution] ∧
      Explained table tally.attributions attribution := by
  cases hnext with
  | uncategorised hplace =>
    have hunplaced (tag : String) (index : Nat) :
        ¬ (record row span .uncategorised).Placed table tag index := by
      rintro ⟨htag, hindex⟩
      cases hindex.symm.trans (Option.bind_eq_none_iff.mp hplace tag htag)
    exact ⟨_, rfl, iff_of_true rfl hplace, fun tag index h ↦ absurd h (hunplaced tag index),
      fun tag index h ↦ absurd h (hunplaced tag index),
      fun tag index h ↦ absurd h (hunplaced tag index)⟩
  | @counted tag index htag hindex hmatch =>
    obtain ⟨hclr, hdst⟩ := Ledger.match?_eq_none.mp hmatch
    rw [h] at hclr hdst
    exact ⟨_, rfl, .of_placed ⟨htag, hindex⟩ (fun hbooked ↦ absurd hbooked hclr)
      (fun _ hbooked ↦ absurd hbooked hdst) fun _ _ ↦ rfl⟩
  | @duplicate tag index matched htag hindex hmatch =>
    refine ⟨_, rfl, .of_placed ⟨htag, hindex⟩ ?_ ?_ ?_⟩
    all_goals
      rw [Ledger.match?_eq_some, h, h] at hmatch
      rcases hmatch with ⟨hclr, rfl⟩ | ⟨hfree, hdst, rfl⟩
    · exact fun _ ↦ rfl
    · exact fun hbooked ↦ absurd hbooked hfree
    · exact fun hnot ↦ absurd hclr hnot
    · exact fun _ _ ↦ rfl
    · exact fun hnot ↦ absurd hclr hnot
    · exact fun _ hnot ↦ absurd hdst hnot

end Step

theorem allExplained_foldl_see (table : CategoryTable) (visits : List Visit) :
    AllExplained table (visits.foldl (see table) (start table)).attributions := by
  have hrun : Mirrors (visits.foldl (see table) (start table)) ∧
      AllExplained table (visits.foldl (see table) (start table)).attributions := by
    refine foldl_see_induction (motive := fun tally ↦ tally.Mirrors ∧
      AllExplained table tally.attributions) ⟨?_, ?_⟩ ?_
    · intro tag opid
      simp [start, Ledger.contains, Booked]
    · intro earlier attribution hinitial
      simp [start] at hinitial
    · rintro tally next visit - span - ⟨hmirrors, hexplained⟩ hnext
      obtain ⟨attribution, hadded, hlast⟩ := hmirrors.explained hnext
      exact ⟨hmirrors.of_assigned hnext, hadded ▸ hexplained.concat hlast⟩
  exact hrun.2

end Tally

/-- The attributions of a breakdown explain each other: the outcome of each follows from those
before it. No two of them count time under one tag for one clearance operation. -/
theorem Breakdown.allExplained_of_ofOperation {store : Store} {table : CategoryTable}
    {root : OpId} {breakdown : Breakdown} {findings : Findings}
    (h : ofOperation store table root = .ok (some breakdown, findings)) :
    AllExplained table breakdown.attributions ∧
      breakdown.attributions.Pairwise fun first second ↦ first.outcome.isCounted = true →
        second.outcome.isCounted = true →
          (first.smTag, first.clr) ≠ (second.smTag, second.clr) := by
  obtain ⟨total, visits, -, -, rfl, -⟩ := descend_of_ofOperation h
  have hexplained : AllExplained table (ofVisits table total visits).attributions :=
    Tally.allExplained_foldl_see table visits
  exact ⟨hexplained, hexplained.pairwise_counted⟩

/-- In the trace with shared clearance, operation 4 is a duplicate since operation 2 was counted
for the same clearance operation. -/
theorem Breakdown.allExplained_of_shared :
    AllExplained Shared.table Shared.breakdown.attributions ∧
      Shared.breakdown.attributions.Pairwise fun first second ↦ first.outcome.isCounted = true →
        second.outcome.isCounted = true →
          (first.smTag, first.clr) ≠ (second.smTag, second.clr) :=
  allExplained_of_ofOperation Shared.ofOperation_root

end OpTrace

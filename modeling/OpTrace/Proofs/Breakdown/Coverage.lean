import OpTrace.Proofs.Breakdown.Tally

/-!
# What a breakdown covers

Every descendant of the root is accounted for in one way and once. One with a complete span has an
attribution, with the duration of that span; one without has a finding, the one that the resolver
makes of it. Nothing is said of any other operation, and a root without a complete span has one
finding and no breakdown.

This holds for every table of map rows, whichever cycles it has, and the answer is there whenever
the store answers its questions.
-/

namespace OpTrace

section Verdicts

variable {store : Store} {visits : List Visit}

/-- The operation of a visit has a complete span if the visit says so. -/
theorem Visit.isComplete_iff {visit : Visit}
    (hresolve : store.resolve visit.opid = .ok visit.resolution) :
    visit.resolution.isComplete = true ↔
      ∃ span, store.resolve visit.opid = .ok (.complete span) := by
  rw [hresolve]
  cases visit.resolution <;> simp

/-- The finding of a visit is about its operation and discards it. -/
theorem Visit.finding_eq {visit : Visit}
    (hresolve : store.resolve visit.opid = .ok visit.resolution) {finding : Finding}
    (h : visit.resolution.finding? = some finding) :
    store.resolve finding.opid = .ok (.incomplete finding) ∧ finding.discardsSpan = true ∧
      finding.opid = visit.opid := by
  cases hresolution : visit.resolution with
  | complete span => simp [hresolution] at h
  | incomplete own =>
    obtain rfl : own = finding := by simpa [hresolution] using h
    rw [hresolution] at hresolve
    obtain ⟨hdiscards, hopid⟩ := Store.discards_of_resolve hresolve
    exact ⟨hopid ▸ hresolve, hdiscards, hopid⟩

/-- The findings of visits are about those without a complete span, in their order. -/
theorem opids_findings
    (hresolved : ∀ visit ∈ visits, store.resolve visit.opid = .ok visit.resolution) :
    (visits.filterMap (·.resolution.finding?)).map Finding.opid =
      (visits.filter (!·.resolution.isComplete)).map Visit.opid := by
  induction visits with
  | nil => rfl
  | cons visit visits ih =>
    obtain ⟨hresolve, hrest⟩ := List.forall_mem_cons.mp hresolved
    cases hresolution : visit.resolution with
    | complete span => simpa [hresolution] using ih hrest
    | incomplete finding =>
      have hopid : finding.opid = visit.opid :=
        (Visit.finding_eq hresolve (by simp [hresolution])).2.2
      simpa [hresolution, hopid] using ih hrest

end Verdicts

namespace Breakdown

/-- The breakdown and the findings account for each descendant of the root once. -/
structure Covers (breakdown : Breakdown) (findings : Findings) (store : Store)
    (maps : List MapRow) (root : OpId) : Prop where
  nodup_attributions : (breakdown.attributions.map (·.opid)).Nodup
  mem_attributions : ∀ opid, opid ∈ breakdown.attributions.map (·.opid) ↔
    Descendant maps root opid ∧ ∃ span, store.resolve opid = .ok (.complete span)
  durations : ∀ attribution ∈ breakdown.attributions, ∃ span,
    store.resolve attribution.opid = .ok (.complete span) ∧ attribution.duration = span.duration
  nodup_findings : (findings.map (·.opid)).Nodup
  mem_findings : ∀ opid, opid ∈ findings.map (·.opid) ↔
    Descendant maps root opid ∧ ¬ ∃ span, store.resolve opid = .ok (.complete span)
  verdicts : ∀ finding ∈ findings, store.resolve finding.opid = .ok (.incomplete finding) ∧
    finding.discardsSpan = true

variable {store : Store} {maps : List MapRow} {table : CategoryTable} {root : OpId}

/-- The visits of a descent are divided between attributions and findings. -/
theorem covers_of_descent {total : Span} {visits : List Visit}
    (h : Descent store maps root visits) :
    (ofVisits table total visits).Covers (visits.filterMap (·.resolution.finding?)) store maps
      root := by
  have hattributions : (ofVisits table total visits).attributions.map (·.opid) =
      (visits.filter (·.resolution.isComplete)).map Visit.opid :=
    Tally.opids_foldl_see visits (Tally.start table)
  have hfindings := opids_findings h.resolved
  have hcomplete {visit : Visit} (hvisit : visit ∈ visits) :=
    Visit.isComplete_iff (h.resolved visit hvisit)
  constructor
  · rw [hattributions]
    exact h.nodup.sublist (List.filter_sublist.map _)
  · intro opid
    rw [hattributions, ← h.mem_iff]
    simp only [List.mem_map, List.mem_filter]
    constructor
    · rintro ⟨visit, ⟨hvisit, hspan⟩, rfl⟩
      exact ⟨⟨visit, hvisit, rfl⟩, (hcomplete hvisit).mp hspan⟩
    · rintro ⟨⟨visit, hvisit, rfl⟩, hspan⟩
      exact ⟨visit, ⟨hvisit, (hcomplete hvisit).mpr hspan⟩, rfl⟩
  · intro attribution hattribution
    obtain ⟨visit, hvisit, span, outcome, hspan, rfl⟩ := Tally.records_foldl_see hattribution
    exact ⟨span, by rw [← hspan]; exact h.resolved visit hvisit, rfl⟩
  · rw [hfindings]
    exact h.nodup.sublist (List.filter_sublist.map _)
  · intro opid
    rw [hfindings, ← h.mem_iff]
    simp only [List.mem_map, List.mem_filter, Bool.not_eq_true']
    constructor
    · rintro ⟨visit, ⟨hvisit, hspan⟩, rfl⟩
      exact ⟨⟨visit, hvisit, rfl⟩, by rw [← hcomplete hvisit, hspan]; simp⟩
    · rintro ⟨⟨visit, hvisit, rfl⟩, hspan⟩
      rw [← hcomplete hvisit, Bool.not_eq_true] at hspan
      exact ⟨visit, ⟨hvisit, hspan⟩, rfl⟩
  · intro finding hfinding
    obtain ⟨visit, hvisit, hfound⟩ := List.mem_filterMap.mp hfinding
    obtain ⟨hresolve, hdiscards, -⟩ := Visit.finding_eq (h.resolved visit hvisit) hfound
    exact ⟨hresolve, hdiscards⟩

/-- What breaking down an operation answers. -/
theorem covers_of_serves (hserves : store.Serves maps) (table : CategoryTable) (root : OpId) :
    (∀ total, store.resolve root = .ok (.complete total) → ∃ breakdown findings,
      ofOperation store table root = .ok (some breakdown, findings) ∧ breakdown.total = total ∧
        breakdown.Covers findings store maps root) ∧
      ((¬ ∃ total, store.resolve root = .ok (.complete total)) → ∃ finding,
        ofOperation store table root = .ok (none, [finding]) ∧ finding.opid = root ∧
          finding.discardsSpan = true) := by
  constructor
  · intro total hresolve
    obtain ⟨visits, hvisits, hdescent⟩ := exists_descent hserves root
    exact ⟨_, _, ofOperation_of_descend hresolve hvisits, rfl, covers_of_descent hdescent⟩
  · intro hnone
    obtain ⟨resolution, hresolve⟩ := hserves.exists_resolve root
    cases resolution with
    | complete total => exact absurd ⟨total, hresolve⟩ hnone
    | incomplete finding =>
      obtain ⟨hdiscards, hopid⟩ := Store.discards_of_resolve hresolve
      exact ⟨finding, ofOperation_of_incomplete hresolve, hopid, hdiscards⟩

/-- The breakdown of the trace with shared clearance covers the trace below the root, and there is
none for the operation that never finishes. -/
theorem covers_of_shared :
    Shared.breakdown.Covers [Finding.incompleteSpan 6 .finish] Shared.trace.toStore
        Shared.trace.maps.rows 1 ∧
      ∃ finding, ofOperation Shared.trace.toStore Shared.table 6 = .ok (none, [finding]) ∧
        finding.opid = 6 ∧ finding.discardsSpan = true := by
  constructor
  · obtain ⟨_, _, hanswer, -, hcovers⟩ :=
      (covers_of_serves Shared.trace.serves Shared.table 1).1 _ Shared.resolve_root
    obtain ⟨rfl, rfl⟩ : Shared.breakdown = _ ∧ [Finding.incompleteSpan 6 .finish] = _ := by
      simpa using Shared.ofOperation_root.symm.trans hanswer
    exact hcovers
  · refine (covers_of_serves Shared.trace.serves Shared.table 6).2 ?_
    rintro ⟨total, htotal⟩
    cases Shared.resolve_open.symm.trans htotal

end Breakdown

end OpTrace

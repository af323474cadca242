import Mathlib
import OpTrace.Breakdown.Basic
import OpTrace.Proofs.Breakdown.Descent
import OpTrace.Proofs.Finding
import OpTrace.Proofs.Sample

/-!
# How the time of descendants is attributed

A descendant with a complete span does one of three things to the tally. Without a category its
time is uncategorised; with one it is counted, or it is a duplicate. In each case one attribution
is added at the end of the list, and the ledger and the buckets change for the reason that it gives.
What holds of an empty tally and is kept by these three steps holds of every breakdown.

A breakdown is made from a descent: its attributions are of the visits with a complete span, and
its findings are of the others.
-/

namespace OpTrace

namespace Outcome

def isCounted : Outcome → Bool
  | counted _ => true
  | _ => false

def isDuplicate : Outcome → Bool
  | duplicate _ _ => true
  | _ => false

theorem ne_of_isCounted {outcome : Outcome} (h : outcome.isCounted = true) :
    outcome ≠ .uncategorised := by
  rintro rfl
  cases h

theorem ne_of_isDuplicate {outcome : Outcome} (h : outcome.isDuplicate = true) :
    outcome ≠ .uncategorised := by
  rintro rfl
  cases h

end Outcome

namespace Tally

def record (row : MapRow) (span : Span) (outcome : Outcome) : Attribution :=
  { opid := row.src, map := row.id, dst := row.dst, clr := row.clr, smTag := tagOf row span,
    duration := span.duration, outcome }

section Record

variable (row : MapRow) (span : Span) (outcome : Outcome)

@[simp] theorem smTag_record : (record row span outcome).smTag = tagOf row span := rfl
@[simp] theorem duration_record : (record row span outcome).duration = span.duration := rfl

end Record

@[simp] theorem attributions_note (tally : Tally) (row : MapRow) (span : Span)
    (outcome : Outcome) :
    (tally.note row span outcome).attributions = tally.attributions ++ [record row span outcome] :=
  rfl

@[simp] theorem ledger_note (tally : Tally) (row : MapRow) (span : Span) (outcome : Outcome) :
    (tally.note row span outcome).ledger = tally.ledger := rfl

section Step

variable {table : CategoryTable} {tally next : Tally} {row : MapRow} {span : Span}

theorem placeOf_eq_some {tag : String} {index : Nat} :
    placeOf table row span = some (tag, index) ↔
      tagOf row span = some tag ∧ table.classify tag = some index := by
  simp only [placeOf, Option.bind_eq_bind, Option.bind_eq_some_iff, Option.pure_def,
    Option.some_inj, Prod.mk.injEq]
  constructor
  · rintro ⟨own, htag, place, hindex, rfl, rfl⟩
    exact ⟨htag, hindex⟩
  · rintro ⟨htag, hindex⟩
    exact ⟨tag, htag, index, hindex, rfl, rfl⟩

theorem placeOf_eq_none :
    placeOf table row span = none ↔ (tagOf row span).bind table.classify = none := by
  cases htag : tagOf row span with
  | none => simp [placeOf, htag]
  | some tag => cases hindex : table.classify tag <;> simp [placeOf, htag, hindex]

/-- What a descendant can do to a tally. -/
inductive Assigned (table : CategoryTable) (tally : Tally) (row : MapRow) (span : Span) :
    Tally → Prop where
  | uncategorised (hplace : (tagOf row span).bind table.classify = none) :
      Assigned table tally row span
        { tally.note row span .uncategorised with
          uncategorised := addCapped tally.uncategorised span.duration }
  | counted {tag : String} {index : Nat} (htag : tagOf row span = some tag)
      (hindex : table.classify tag = some index) (hmatch : tally.ledger.match? tag row = none) :
      Assigned table tally row span
        { tally.note row span (.counted (table.nameAt index)) with
          ledger := tally.ledger.book tag row.clr
          buckets := tally.buckets.modify index (Bucket.add span.duration) }
  | duplicate {tag : String} {index : Nat} {matched : LedgerKey}
      (htag : tagOf row span = some tag) (hindex : table.classify tag = some index)
      (hmatch : tally.ledger.match? tag row = some matched) :
      Assigned table tally row span
        { tally.note row span (.duplicate (table.nameAt index) matched) with
          ledger := tally.ledger.book tag row.src }

theorem assigned_assign (table : CategoryTable) (tally : Tally) (row : MapRow) (span : Span) :
    Assigned table tally row span (tally.assign table row span) := by
  unfold assign
  split
  · next hplace => exact .uncategorised (placeOf_eq_none.mp hplace)
  · next tag index hplace =>
    obtain ⟨htag, hindex⟩ := placeOf_eq_some.mp hplace
    cases hmatch : tally.ledger.match? tag row with
    | none =>
      simp only [Ledger.receive, hmatch]
      exact .counted htag hindex hmatch
    | some matched =>
      simp only [Ledger.receive, hmatch]
      exact .duplicate htag hindex hmatch

/-- Each step adds one attribution. -/
theorem Assigned.attributions (h : Assigned table tally row span next) :
    ∃ outcome, next.attributions = tally.attributions ++ [record row span outcome] := by
  cases h <;> exact ⟨_, rfl⟩

end Step

section Run

variable {table : CategoryTable} {visits : List Visit}

/-- What each step keeps is kept by a run. -/
theorem foldl_see_induction {motive : Tally → Prop} {start : Tally} (hstart : motive start)
    (hstep : ∀ tally next, ∀ visit ∈ visits, ∀ span, visit.resolution = .complete span →
      motive tally → Assigned table tally visit.row span next → motive next) :
    motive (visits.foldl (see table) start) := by
  refine List.foldlRecOn visits _ hstart fun tally htally visit hvisit ↦ ?_
  unfold see
  split
  · next span hspan => exact hstep _ _ visit hvisit span hspan htally (assigned_assign ..)
  · exact htally

/-- The attributions of a run are of the visits with a complete span, in their order. What an
attribution takes from its visit is the same in both lists. -/
theorem map_attributions_foldl_see {β : Type} {ofAttribution : Attribution → β}
    {ofVisit : Visit → β}
    (hrecord : ∀ visit span outcome, ofAttribution (record visit.row span outcome) = ofVisit visit)
    (visits : List Visit) (start : Tally) :
    (visits.foldl (see table) start).attributions.map ofAttribution =
      start.attributions.map ofAttribution ++
        (visits.filter (·.resolution.isComplete)).map ofVisit := by
  induction visits generalizing start with
  | nil => simp
  | cons visit visits ih =>
    rw [List.foldl_cons, ih]
    cases hresolution : visit.resolution with
    | incomplete finding => simp [see, hresolution]
    | complete span =>
      obtain ⟨outcome, hnext⟩ := (assigned_assign table start visit.row span).attributions
      simp [see, hresolution, hnext, hrecord]

theorem opids_foldl_see (visits : List Visit) (start : Tally) :
    (visits.foldl (see table) start).attributions.map (·.opid) =
      start.attributions.map (·.opid) ++
        (visits.filter (·.resolution.isComplete)).map Visit.opid :=
  map_attributions_foldl_see (fun _ _ _ ↦ rfl) visits start

/-- The attribution of a visit with a complete span. -/
def Records (visit : Visit) (attribution : Attribution) : Prop :=
  ∃ span outcome, visit.resolution = .complete span ∧ attribution = record visit.row span outcome

theorem records_foldl_see {attribution : Attribution}
    (h : attribution ∈ (visits.foldl (see table) (start table)).attributions) :
    ∃ visit ∈ visits, Records visit attribution := by
  revert h
  refine foldl_see_induction (motive := fun tally ↦ attribution ∈ tally.attributions →
    ∃ visit ∈ visits, Records visit attribution) (fun h ↦ nomatch h) ?_
  intro tally next visit hvisit span hspan hbefore hassigned hnext
  obtain ⟨outcome, hadded⟩ := hassigned.attributions
  rw [hadded, List.mem_append, List.mem_singleton] at hnext
  rcases hnext with hold | rfl
  · exact hbefore hold
  · exact ⟨visit, hvisit, span, outcome, hspan, rfl⟩

end Run

end Tally

namespace Breakdown

variable {store : Store} {table : CategoryTable} {root : OpId}

theorem ofOperation_of_descend {total : Span} {visits : List Visit}
    (hresolve : store.resolve root = .ok (.complete total))
    (hdescend : descend store root = .ok visits) :
    ofOperation store table root =
      .ok (some (ofVisits table total visits), visits.filterMap (·.resolution.finding?)) := by
  refine bind_eq_ok.mpr ⟨_, hresolve, bind_eq_ok.mpr ⟨(_, _), ?_, rfl⟩⟩
  exact bind_eq_ok.mpr ⟨visits, hdescend, rfl⟩

theorem ofOperation_of_incomplete {finding : Finding}
    (hresolve : store.resolve root = .ok (.incomplete finding)) :
    ofOperation store table root = .ok (none, [finding]) :=
  bind_eq_ok.mpr ⟨_, hresolve, rfl⟩

/-- A breakdown is made from the root's span and a descent. -/
theorem descend_of_ofOperation {breakdown : Breakdown} {findings : Findings}
    (h : ofOperation store table root = .ok (some breakdown, findings)) :
    ∃ total visits, store.resolve root = .ok (.complete total) ∧
      descend store root = .ok visits ∧ breakdown = ofVisits table total visits ∧
        findings = visits.filterMap (·.resolution.finding?) := by
  obtain ⟨resolution, hresolve, h⟩ := bind_eq_ok.mp h
  cases resolution with
  | incomplete finding => cases h
  | complete total =>
    obtain ⟨⟨made, found⟩, hspan, h⟩ := bind_eq_ok.mp h
    obtain ⟨visits, hdescend, hmade⟩ := bind_eq_ok.mp hspan
    cases h
    cases hmade
    exact ⟨total, visits, hresolve, hdescend, rfl, rfl⟩

end Breakdown

namespace Shared

open Sample

/-- Operation 1 is the root. The work of 4 is already in that of 2, since 1 waits for both, and 6
never finishes. The times of 3 and 5 add up to more than a record can hold. A row leads from 7 back
to the root. -/
def trace : Trace := .ofRows
  [stateRow 1 0 1 .init, stateRow 2 longest 1 .finish, stateRow 3 10 2 .init,
    stateRow 4 60 2 .finish, stateRow 5 0 3 .init, stateRow 6 longest 3 .finish,
    stateRow 7 20 4 .init, stateRow 8 50 4 .finish, stateRow 9 5 5 .init, stateRow 10 8 5 .finish,
    stateRow 11 30 6 .init, stateRow 12 35 7 .init, stateRow 13 40 7 .finish]
  []
  [mapRow 1 2 1 1 (some "CFS"), mapRow 2 3 1 1 (some "KVS"), mapRow 3 4 2 1 (some "CFS"),
    mapRow 4 5 3 5 (some "KVS"), mapRow 5 6 4 4, mapRow 6 7 6 6, mapRow 7 1 7 7]

def table : CategoryTable where
  categories := [{ name := "cache", tags := ["CFS"] }, { name := "keys", tags := ["KVS"] }]
  ne_nil := by decide
  nodup_tags := by decide

def total : Span := { opid := 1, fnTag := "request", smTag := none, start := 0, finish := longest }

def breakdown : Breakdown where
  total
  buckets :=
    [{ name := "cache", duration := 50, contributors := 1 },
      { name := "keys", duration := longest, contributors := 2 }]
  uncategorised := 5
  attributions :=
    [{ opid := 2, map := 1, dst := 1, clr := 1, smTag := some "CFS", duration := 50,
       outcome := .counted "cache" },
      { opid := 3, map := 2, dst := 1, clr := 1, smTag := some "KVS", duration := longest,
        outcome := .counted "keys" },
      { opid := 4, map := 3, dst := 2, clr := 1, smTag := some "CFS", duration := 30,
        outcome := .duplicate "cache" ⟨"CFS", 1⟩ },
      { opid := 5, map := 4, dst := 3, clr := 5, smTag := some "KVS", duration := 3,
        outcome := .counted "keys" },
      { opid := 7, map := 6, dst := 6, clr := 6, smTag := none, duration := 5,
        outcome := .uncategorised }]

theorem resolve_root : trace.toStore.resolve 1 = .ok (.complete total) := by cbv

theorem resolve_open : trace.toStore.resolve 6 = .ok (.incomplete (.incompleteSpan 6 .finish)) := by
  cbv

theorem ofOperation_root : Breakdown.ofOperation trace.toStore table 1 =
    .ok (some breakdown, [.incompleteSpan 6 .finish]) := by
  cbv

end Shared

end OpTrace

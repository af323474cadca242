import OpTrace.Proofs.Breakdown.Tally

/-!
# What the times of a breakdown add up to

The buckets of a breakdown, and its uncategorised time, are sums over the attributions: each bucket
has the time that was counted for its category, and how often time was counted. A sum that is
capped at each step is the exact sum capped once, since no operation with a complete span has a
negative duration.

Every category has a bucket, at the same place as in the table, and no duplicate is part of a sum.
-/

namespace OpTrace

theorem addCapped_min_longest {sum duration : Int} (hsum : 0 ≤ sum) (hduration : 0 ≤ duration) :
    addCapped (min longest sum) duration = min longest (sum + duration) := by
  simp only [addCapped, cap, shortest, longest]
  omega

/-- A complete span does not finish before it starts. -/
theorem Store.duration_nonneg {store : Store} {opid : OpId} {span : Span}
    (h : store.resolve opid = .ok (.complete span)) : 0 ≤ span.duration := by
  obtain ⟨rows, -, h⟩ := bind_eq_ok.mp h
  have hresolve := pure_eq_ok.mp h
  exact cap_nonneg (Int.sub_nonneg_of_le (Sighting.start_le_finish_of_resolve hresolve))

def totalTime (attributions : List Attribution) : Int := (attributions.map (·.duration)).sum

@[simp] theorem totalTime_concat (attributions : List Attribution) (last : Attribution) :
    totalTime (attributions ++ [last]) = totalTime attributions + last.duration := by
  simp [totalTime]

theorem totalTime_nonneg {part whole : List Attribution} (hpart : part.Sublist whole)
    (h : ∀ attribution ∈ whole, 0 ≤ attribution.duration) : 0 ≤ totalTime part :=
  List.sum_nonneg (List.forall_mem_map.mpr fun attribution hattribution ↦
    h attribution (hpart.subset hattribution))

/-- The time is counted for the category at a place of the table. -/
def Attribution.CountedAt (table : CategoryTable) (index : Nat) (attribution : Attribution) :
    Prop :=
  attribution.outcome.isCounted = true ∧ attribution.smTag.bind table.classify = some index

instance (table : CategoryTable) (index : Nat) :
    DecidablePred (Attribution.CountedAt table index) :=
  fun attribution ↦ inferInstanceAs (Decidable
    (attribution.outcome.isCounted = true ∧ attribution.smTag.bind table.classify = some index))

/-- The attributions that are counted for the category at a place of the table. -/
def countedAt (table : CategoryTable) (index : Nat) (attributions : List Attribution) :
    List Attribution :=
  attributions.filter (Attribution.CountedAt table index ·)

def withoutCategory (attributions : List Attribution) : List Attribution :=
  attributions.filter (·.outcome = .uncategorised)

/-- The bucket that the attributions give to the category at a place of the table. -/
def bucketOf (table : CategoryTable) (attributions : List Attribution) (index : Nat)
    (name : String) : Bucket where
  name
  duration := min longest (totalTime (countedAt table index attributions))
  contributors := (countedAt table index attributions).length

section Buckets

variable {table : CategoryTable} {attributions : List Attribution} {last : Attribution}
  {index : Nat}

theorem bucketOf_concat_of_counted
    (hnonneg : ∀ attribution ∈ attributions, 0 ≤ attribution.duration)
    (hlast : 0 ≤ last.duration) (h : last.CountedAt table index) (name : String) :
    bucketOf table (attributions ++ [last]) index name =
      (bucketOf table attributions index name).add last.duration := by
  have hsum : 0 ≤ totalTime (countedAt table index attributions) :=
    totalTime_nonneg List.filter_sublist hnonneg
  have hconcat : countedAt table index (attributions ++ [last]) =
      countedAt table index attributions ++ [last] := by
    simp [countedAt, h]
  simp [bucketOf, Bucket.add, hconcat, addCapped_min_longest hsum hlast]

theorem bucketOf_concat_of_not_counted (attributions : List Attribution)
    (h : ¬ last.CountedAt table index) (name : String) :
    bucketOf table (attributions ++ [last]) index name =
      bucketOf table attributions index name := by
  have hconcat : countedAt table index (attributions ++ [last]) =
      countedAt table index attributions := by
    simp [countedAt, h]
  simp [bucketOf, hconcat]

theorem withoutCategory_concat_of_ne (h : last.outcome ≠ .uncategorised) :
    withoutCategory (attributions ++ [last]) = withoutCategory attributions := by
  simp [withoutCategory, h]

theorem withoutCategory_concat_of_eq (h : last.outcome = .uncategorised) :
    withoutCategory (attributions ++ [last]) = withoutCategory attributions ++ [last] := by
  simp [withoutCategory, h]

end Buckets

namespace Tally

variable {table : CategoryTable} {tally next : Tally} {row : MapRow} {span : Span}

/-- The buckets and the uncategorised time are the capped sums of the attributions. -/
structure Sums (table : CategoryTable) (tally : Tally) : Prop where
  nonneg : ∀ attribution ∈ tally.attributions, 0 ≤ attribution.duration
  buckets : ∀ index : Nat,
    tally.buckets[index]? = table.names[index]?.map (bucketOf table tally.attributions index)
  uncategorised : tally.uncategorised =
    min longest (totalTime (withoutCategory tally.attributions))

theorem sums_start (table : CategoryTable) : Sums table (start table) where
  nonneg attribution h := nomatch h
  buckets index := by
    rw [start, List.getElem?_map]
    rfl
  uncategorised := rfl

theorem Sums.buckets_concat (h : Sums table tally) {last : Attribution}
    (hlast : last.outcome.isCounted = false) (index : Nat) :
    tally.buckets[index]? =
      table.names[index]?.map (bucketOf table (tally.attributions ++ [last]) index) := by
  have hnot : ¬ last.CountedAt table index := by
    simp [Attribution.CountedAt, hlast]
  rw [h.buckets, funext (bucketOf_concat_of_not_counted tally.attributions hnot)]

theorem Sums.uncategorised_concat (h : Sums table tally) {last : Attribution}
    (hlast : last.outcome ≠ .uncategorised) : tally.uncategorised =
      min longest (totalTime (withoutCategory (tally.attributions ++ [last]))) := by
  rw [h.uncategorised, withoutCategory_concat_of_ne hlast]

/-- Counted time goes to the bucket of its category and to no other one. -/
theorem Sums.buckets_modify (h : Sums table tally) {last : Attribution} {index : Nat}
    (hlast : 0 ≤ last.duration) (hcounted : last.CountedAt table index) (place : Nat) :
    (tally.buckets.modify index (Bucket.add last.duration))[place]? =
      table.names[place]?.map (bucketOf table (tally.attributions ++ [last]) place) := by
  rw [List.getElem?_modify, h.buckets, Option.map_eq_map, Option.map_map]
  congr 1
  funext name
  by_cases hsame : index = place
  · subst hsame
    have hbucket := bucketOf_concat_of_counted h.nonneg hlast hcounted name
    simpa using hbucket.symm
  · have hnot : ¬ last.CountedAt table place := fun hother ↦
      hsame (Option.some.inj (hcounted.2.symm.trans hother.2))
    have hbucket := bucketOf_concat_of_not_counted tally.attributions hnot name
    simpa [hsame] using hbucket.symm

/-- Uncategorised time is added to the uncategorised sum. -/
theorem Sums.uncategorised_add (h : Sums table tally) {last : Attribution}
    (hlast : 0 ≤ last.duration) (hnone : last.outcome = .uncategorised) :
    addCapped tally.uncategorised last.duration =
      min longest (totalTime (withoutCategory (tally.attributions ++ [last]))) := by
  have hsum : 0 ≤ totalTime (withoutCategory tally.attributions) :=
    totalTime_nonneg List.filter_sublist h.nonneg
  calc addCapped tally.uncategorised last.duration
    _ = addCapped (min longest (totalTime (withoutCategory tally.attributions)))
        last.duration := by rw [h.uncategorised]
    _ = min longest (totalTime (withoutCategory tally.attributions) + last.duration) :=
      addCapped_min_longest hsum hlast
    _ = min longest (totalTime (withoutCategory (tally.attributions ++ [last]))) := by
      rw [withoutCategory_concat_of_eq hnone, totalTime_concat]

/-- Each step keeps the sums. -/
theorem Sums.of_assigned (h : Sums table tally) (hspan : 0 ≤ span.duration)
    (hnext : Assigned table tally row span next) : Sums table next := by
  have hnonneg : ∀ attribution ∈ next.attributions, 0 ≤ attribution.duration := by
    obtain ⟨outcome, hadded⟩ := hnext.attributions
    rw [hadded]
    exact List.forall_mem_append.mpr ⟨h.nonneg, List.forall_mem_singleton.mpr hspan⟩
  have hrecord (outcome : Outcome) : 0 ≤ (record row span outcome).duration := hspan
  cases hnext with
  | uncategorised hplace =>
    exact ⟨hnonneg, h.buckets_concat rfl, h.uncategorised_add (hrecord .uncategorised) rfl⟩
  | @counted tag index htag hindex hmatch =>
    have hcounted : (record row span (.counted (table.nameAt index))).CountedAt table index :=
      ⟨rfl, by simp [htag, hindex]⟩
    have hbuckets := h.buckets_modify (hrecord _) hcounted
    rw [duration_record] at hbuckets
    exact ⟨hnonneg, hbuckets, h.uncategorised_concat (by simp)⟩
  | duplicate htag hindex hmatch =>
    exact ⟨hnonneg, h.buckets_concat rfl, h.uncategorised_concat (by simp)⟩

theorem Sums.map_name (h : Sums table tally) : tally.buckets.map (·.name) = table.names := by
  refine List.ext_getElem? fun index ↦ ?_
  rw [List.getElem?_map, h.buckets, Option.map_map]
  exact Option.map_id'

theorem Sums.exists_bucketOf (h : Sums table tally) {index : Nat} {bucket : Bucket}
    (hget : tally.buckets[index]? = some bucket) :
    ∃ name, bucketOf table tally.attributions index name = bucket := by
  rw [h.buckets, Option.map_eq_some_iff] at hget
  obtain ⟨name, -, hbucket⟩ := hget
  exact ⟨name, hbucket⟩

theorem Sums.capped_nonneg (h : Sums table tally) {part : List Attribution}
    (hpart : part.Sublist tally.attributions) : 0 ≤ min longest (totalTime part) :=
  le_min (by decide) (totalTime_nonneg hpart h.nonneg)

/-- The sums hold of a run over visits that the resolver decides. -/
theorem sums_foldl_see {store : Store} {visits : List Visit}
    (hresolved : ∀ visit ∈ visits, store.resolve visit.opid = .ok visit.resolution) :
    Sums table (visits.foldl (see table) (start table)) := by
  refine foldl_see_induction (sums_start table) ?_
  intro tally next visit hvisit span hspan hsums hnext
  have hresolve := hresolved visit hvisit
  rw [hspan] at hresolve
  exact hsums.of_assigned (Store.duration_nonneg hresolve) hnext

end Tally

theorem CategoryTable.lt_length_of_classify {table : CategoryTable} {tag : String} {index : Nat}
    (h : table.classify tag = some index) : index < table.names.length := by
  obtain ⟨hlt, -⟩ := List.findIdx?_eq_some_iff_getElem.mp h
  simpa [names] using hlt

namespace Breakdown

/-- The times of the breakdown are the capped sums of its attributions. There is a bucket for each
category, and no duplicate is part of a sum. -/
structure AddsUp (breakdown : Breakdown) (table : CategoryTable) : Prop where
  names : breakdown.buckets.map (·.name) = table.names
  in_range : ∀ tag index, table.classify tag = some index → index < breakdown.buckets.length
  buckets : ∀ (index : Nat) (bucket : Bucket), breakdown.buckets[index]? = some bucket →
    bucket.duration = min longest (totalTime (countedAt table index breakdown.attributions)) ∧
      bucket.contributors = (countedAt table index breakdown.attributions).length
  uncategorised : breakdown.uncategorised =
    min longest (totalTime (withoutCategory breakdown.attributions))
  duplicates : ∀ attribution, attribution.outcome.isDuplicate = true →
    (∀ index, attribution ∉ countedAt table index breakdown.attributions) ∧
      attribution ∉ withoutCategory breakdown.attributions
  nonneg : (∀ bucket ∈ breakdown.buckets, 0 ≤ bucket.duration) ∧ 0 ≤ breakdown.uncategorised ∧
    ∀ attribution ∈ breakdown.attributions, 0 ≤ attribution.duration

theorem addsUp_of_sums {table : CategoryTable} {total : Span} {visits : List Visit}
    (h : Tally.Sums table (visits.foldl (Tally.see table) (Tally.start table))) :
    (ofVisits table total visits).AddsUp table := by
  refine ⟨h.map_name, ?_, ?_, h.uncategorised, ?_, ?_, ?_, h.nonneg⟩
  · intro tag index hindex
    have hlength := congrArg List.length h.map_name
    rw [List.length_map] at hlength
    exact hlength ▸ table.lt_length_of_classify hindex
  · intro index bucket hget
    obtain ⟨name, rfl⟩ := h.exists_bucketOf hget
    exact ⟨rfl, rfl⟩
  · intro attribution hduplicate
    cases houtcome : attribution.outcome <;> simp [houtcome, Outcome.isDuplicate] at hduplicate
    simp [countedAt, withoutCategory, Attribution.CountedAt, houtcome, Outcome.isCounted]
  · intro bucket hbucket
    obtain ⟨index, hget⟩ := List.mem_iff_getElem?.mp hbucket
    obtain ⟨name, rfl⟩ := h.exists_bucketOf hget
    exact h.capped_nonneg List.filter_sublist
  · exact le_of_le_of_eq (h.capped_nonneg List.filter_sublist) h.uncategorised.symm

/-- The times of every breakdown add up. -/
theorem addsUp_of_ofOperation {store : Store} {table : CategoryTable} {root : OpId}
    {breakdown : Breakdown} {findings : Findings}
    (h : ofOperation store table root = .ok (some breakdown, findings)) :
    breakdown.AddsUp table := by
  obtain ⟨total, visits, -, hvisits, rfl, -⟩ := descend_of_ofOperation h
  exact addsUp_of_sums (Tally.sums_foldl_see (resolved_of_descendFrom hvisits))

/-- In the trace with shared clearance the time of one category is more than a record can hold. -/
theorem addsUp_of_shared : Shared.breakdown.AddsUp Shared.table :=
  addsUp_of_ofOperation Shared.ofOperation_root

end Breakdown

end OpTrace

import OpTrace.Proofs.Breakdown.Sums

/-!
# Buckets by their names

Time is added to a bucket by the place of its category in the table, while an attribution and a
reader of a breakdown know a category by its name. A name finds the first bucket that has it. This
bucket holds all that is counted under the name if nothing is counted for a later category of the
same name, and only then.

A table may give one name to several categories, since it only keeps tags apart. Where the names
differ as well, every bucket holds what is counted under its name.
-/

namespace OpTrace

def countedUnder (name : String) (attributions : List Attribution) : List Attribution :=
  attributions.filter (·.outcome = .counted name)

/-- The bucket that the name finds has the time, and the number, of all that is counted under it. -/
def Breakdown.HoldsUnder (breakdown : Breakdown) (name : String) : Prop :=
  breakdown.durationOf name = min longest (totalTime (countedUnder name breakdown.attributions)) ∧
    ∃ bucket, breakdown.bucket? name = some bucket ∧
      bucket.contributors = (countedUnder name breakdown.attributions).length

/-- The tag of the attribution belongs to the first category of the name. -/
def Attribution.OfFirst (table : CategoryTable) (name : String) (attribution : Attribution) :
    Prop :=
  attribution.smTag.bind table.classify = some (table.names.idxOf name)

instance (table : CategoryTable) (name : String) :
    DecidablePred (Attribution.OfFirst table name) :=
  fun attribution ↦ inferInstanceAs (Decidable
    (attribution.smTag.bind table.classify = some (table.names.idxOf name)))

theorem find?_name_eq (buckets : List Bucket) (name : String) :
    buckets.find? (·.name = name) = buckets[(buckets.map (·.name)).idxOf name]? := by
  induction buckets with
  | nil => rfl
  | cons bucket buckets ih =>
    by_cases h : bucket.name = name
    · simp [h]
    · simp [h, ih, List.idxOf_cons_ne]

section Names

variable {table : CategoryTable} {name : String}

theorem CategoryTable.getElem?_idxOf (hname : name ∈ table.names) :
    table.names[table.names.idxOf name]? = some name := by
  simp [List.getElem?_eq_getElem (List.idxOf_lt_length_of_mem hname)]

theorem CategoryTable.nameAt_idxOf (hname : name ∈ table.names) :
    table.nameAt (table.names.idxOf name) = name := by
  rw [nameAt, getElem?_idxOf hname, Option.getD_some]

/-- Where names differ, a category is the first one of its name. -/
theorem CategoryTable.idxOf_nameAt (hnames : table.names.Nodup) {tag : String} {index : Nat}
    (hindex : table.classify tag = some index) :
    table.names.idxOf (table.nameAt index) = index := by
  have hlt := lt_length_of_classify hindex
  rw [nameAt, List.getElem?_eq_getElem hlt, Option.getD_some]
  exact hnames.idxOf_getElem index hlt

/-- The name of a category finds its first bucket. -/
theorem Tally.Sums.find?_name {tally : Tally} (h : Sums table tally) (hname : name ∈ table.names) :
    tally.buckets.find? (·.name = name) =
      some (bucketOf table tally.attributions (table.names.idxOf name) name) := by
  rw [find?_name_eq, h.map_name, h.buckets, CategoryTable.getElem?_idxOf hname, Option.map_some]

/-- Time is counted under the name of the category that the tag belongs to. -/
def Attribution.WellNamed (table : CategoryTable) (attribution : Attribution) : Prop :=
  ∀ category, attribution.outcome = .counted category → ∃ tag index,
    attribution.smTag = some tag ∧ table.classify tag = some index ∧ table.nameAt index = category

/-- Each step names what it counts by the tag. -/
theorem Tally.Assigned.wellNamed {tally next : Tally} {row : MapRow} {span : Span}
    (h : Assigned table tally row span next) : ∃ attribution,
      next.attributions = tally.attributions ++ [attribution] ∧ attribution.WellNamed table := by
  cases h with
  | uncategorised _ =>
    refine ⟨_, rfl, fun category houtcome ↦ ?_⟩
    cases houtcome
  | @counted tag index htag hindex _ =>
    refine ⟨_, rfl, fun category houtcome ↦ ?_⟩
    cases houtcome
    exact ⟨tag, index, htag, hindex, rfl⟩
  | duplicate _ _ _ =>
    refine ⟨_, rfl, fun category houtcome ↦ ?_⟩
    cases houtcome

theorem Tally.wellNamed_foldl_see (table : CategoryTable) (visits : List Visit) :
    ∀ attribution ∈ (visits.foldl (see table) (start table)).attributions,
      attribution.WellNamed table := by
  refine foldl_see_induction (motive := fun tally ↦ ∀ attribution ∈ tally.attributions,
    attribution.WellNamed table) (fun attribution h ↦ nomatch h) ?_
  intro tally next visit _ span _ hbefore hassigned
  obtain ⟨attribution, hnext, hnamed⟩ := hassigned.wellNamed
  rw [hnext]
  exact List.forall_mem_append.mpr ⟨hbefore, List.forall_mem_singleton.mpr hnamed⟩

variable {attributions : List Attribution}

/-- What is counted for the first category of a name is part of what is counted under the name. -/
theorem countedAt_idxOf (hname : name ∈ table.names)
    (hnamed : ∀ attribution ∈ attributions, attribution.WellNamed table) :
    countedAt table (table.names.idxOf name) attributions =
      (countedUnder name attributions).filter (Attribution.OfFirst table name ·) := by
  rw [countedUnder, List.filter_filter]
  refine List.filter_congr fun attribution hattribution ↦ ?_
  rw [← Bool.decide_and, decide_eq_decide]
  constructor
  · rintro ⟨hcounted, hplace⟩
    cases houtcome : attribution.outcome with
    | counted category =>
      obtain ⟨tag, index, htag, hindex, rfl⟩ := hnamed attribution hattribution category houtcome
      rw [htag, Option.bind_some, hindex, Option.some_inj] at hplace
      subst hplace
      refine ⟨?_, by rw [CategoryTable.nameAt_idxOf hname]⟩
      rw [Attribution.OfFirst, htag, Option.bind_some, hindex]
    | _ => simp [houtcome, Outcome.isCounted] at hcounted
  · rintro ⟨hfirst, houtcome⟩
    exact ⟨by rw [houtcome]; rfl, hfirst⟩

end Names

namespace Breakdown

variable {table : CategoryTable} {name : String} {breakdown : Breakdown}

/-- The bucket of the first category of a name lacks what is counted for later ones. -/
theorem holdsUnder_iff (hname : name ∈ table.names)
    (hbucket : breakdown.bucket? name = some (bucketOf table breakdown.attributions
      (table.names.idxOf name) name))
    (hnamed : ∀ attribution ∈ breakdown.attributions, attribution.WellNamed table) :
    breakdown.HoldsUnder name ↔ ∀ attribution ∈ countedUnder name breakdown.attributions,
      attribution.OfFirst table name := by
  have hpart := countedAt_idxOf hname hnamed
  constructor
  · rintro ⟨-, bucket, hfound, hcontributors⟩
    obtain rfl := Option.some.inj (hbucket.symm.trans hfound)
    rw [bucketOf, hpart, List.length_filter_eq_length_iff] at hcontributors
    exact fun attribution hattribution ↦ of_decide_eq_true (hcontributors attribution hattribution)
  · intro hfirst
    have hwhole : countedAt table (table.names.idxOf name) breakdown.attributions =
        countedUnder name breakdown.attributions :=
      hpart.trans (List.filter_eq_self.mpr fun attribution hattribution ↦
        decide_eq_true (hfirst attribution hattribution))
    refine ⟨?_, _, hbucket, ?_⟩
    · rw [durationOf, hbucket, ← hwhole]
      rfl
    · rw [← hwhole]
      rfl

theorem ofFirst_of_nodup (hnames : table.names.Nodup)
    (hnamed : ∀ attribution ∈ breakdown.attributions, attribution.WellNamed table) :
    ∀ attribution ∈ countedUnder name breakdown.attributions, attribution.OfFirst table name := by
  intro attribution hattribution
  obtain ⟨hmem, houtcome⟩ := List.mem_filter.mp hattribution
  obtain ⟨tag, index, htag, hindex, rfl⟩ :=
    hnamed attribution hmem name (of_decide_eq_true houtcome)
  rw [Attribution.OfFirst, htag, Option.bind_some, hindex,
    CategoryTable.idxOf_nameAt hnames hindex]

/-- The bucket of a name holds what is counted under the name if and only if all of it is of the
first category of the name. It is so wherever the names of the categories differ. -/
theorem holdsUnder_iff_of_ofOperation {store : Store} {root : OpId} {findings : Findings}
    (h : ofOperation store table root = .ok (some breakdown, findings))
    (hname : name ∈ table.names) :
    (breakdown.HoldsUnder name ↔ ∀ attribution ∈ countedUnder name breakdown.attributions,
      attribution.OfFirst table name) ∧ (table.names.Nodup → breakdown.HoldsUnder name) := by
  obtain ⟨total, visits, -, hvisits, rfl, -⟩ := descend_of_ofOperation h
  have hsums : Tally.Sums table (visits.foldl (Tally.see table) (Tally.start table)) :=
    Tally.sums_foldl_see (resolved_of_descendFrom hvisits)
  have hnamed := Tally.wellNamed_foldl_see table visits
  have hiff : (ofVisits table total visits).HoldsUnder name ↔
      ∀ attribution ∈ countedUnder name (ofVisits table total visits).attributions,
        attribution.OfFirst table name := holdsUnder_iff hname (hsums.find?_name hname) hnamed
  exact ⟨hiff, fun hnames ↦ hiff.mpr (ofFirst_of_nodup hnames hnamed)⟩

/-- In the trace with shared clearance the names differ, and the bucket of "keys" holds the time of
both operations that are counted under this name. -/
theorem holdsUnder_of_shared : Shared.breakdown.HoldsUnder "keys" :=
  (holdsUnder_iff_of_ofOperation Shared.ofOperation_root (by decide)).2 (by decide)

end Breakdown

namespace Homonyms

open Sample

/-- Operations 2 and 3 are children of 1, with a tag each. -/
def trace : Trace := .ofRows
  [stateRow 1 0 1 .init, stateRow 2 100 1 .finish, stateRow 3 10 2 .init,
    stateRow 4 20 2 .finish, stateRow 5 30 3 .init, stateRow 6 50 3 .finish]
  []
  [mapRow 1 2 1 1 (some "CFS"), mapRow 2 3 1 1 (some "KVS")]

/-- The two tags belong to two categories with the same name. -/
def categories : List Category :=
  [{ name := "io", tags := ["CFS"] }, { name := "io", tags := ["KVS"] }]

def table : CategoryTable where
  categories
  ne_nil := by decide
  nodup_tags := by decide

def breakdown : Breakdown where
  total := { opid := 1, fnTag := "request", smTag := none, start := 0, finish := 100 }
  buckets :=
    [{ name := "io", duration := 10, contributors := 1 },
      { name := "io", duration := 20, contributors := 1 }]
  uncategorised := 0
  attributions :=
    [{ opid := 2, map := 1, dst := 1, clr := 1, smTag := some "CFS", duration := 10,
       outcome := .counted "io" },
      { opid := 3, map := 2, dst := 1, clr := 1, smTag := some "KVS", duration := 20,
        outcome := .counted "io" }]

theorem ofOperation_root :
    Breakdown.ofOperation trace.toStore table 1 = .ok (some breakdown, []) := by
  cbv

end Homonyms

/-- Two categories of one name make a table, and 30 microseconds are counted under the name, but its
bucket has only 10. -/
theorem Breakdown.not_holdsUnder_of_homonyms :
    CategoryTable.ofCategories Homonyms.categories = .ok Homonyms.table ∧
      ofOperation Homonyms.trace.toStore Homonyms.table 1 = .ok (some Homonyms.breakdown, []) ∧
        "io" ∈ Homonyms.table.names ∧ ¬ Homonyms.breakdown.HoldsUnder "io" := by
  refine ⟨rfl, Homonyms.ofOperation_root, by decide, ?_⟩
  rintro ⟨hduration, -⟩
  exact absurd hduration (by decide)

end OpTrace

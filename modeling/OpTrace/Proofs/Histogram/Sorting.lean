import OpTrace.Proofs.Histogram.Reference
import OpTrace.Proofs.StableOrder

/-!
# Sorted histograms

Sorting is the last step of a histogram and concerns its rows only. The rows of a sorted histogram
are those of the histogram in the order of selection, arranged by duration; rows of equal duration
keep the order of selection, whichever end comes first. So the rows with the longest duration in
front are not the reverse of those with the shortest in front. No other list of rows is arranged
like this.
-/

namespace OpTrace

namespace SortOrder

/-- May row `a` stand in front of row `b`? -/
def Before (order : SortOrder) (a b : HistogramRow) : Prop :=
  match order with
  | ascending => a.duration ≤ b.duration
  | descending => b.duration ≤ a.duration

/-- The rows `arranged` are `rows` by duration, and those of one duration are in their order. -/
structure Arranges (order : SortOrder) (rows arranged : List HistogramRow) : Prop where
  perm : arranged.Perm rows
  ordered : arranged.Pairwise order.Before
  stable : ∀ duration,
    arranged.filter (·.duration = duration) = rows.filter (·.duration = duration)

def key (order : SortOrder) (row : HistogramRow) : Int :=
  match order with
  | ascending => row.duration
  | descending => -row.duration

variable {order : SortOrder} {rows arranged : List HistogramRow}

theorem before_iff {a b : HistogramRow} : order.Before a b ↔ order.key a ≤ order.key b := by
  cases order with
  | ascending => rfl
  | descending => exact Int.neg_le_neg_iff.symm

theorem sort_eq (order : SortOrder) (rows : List HistogramRow) :
    order.sort rows = rows.mergeSort fun a b ↦ order.key a ≤ order.key b := by
  cases order with
  | ascending => rfl
  | descending => simp only [sort, key, Int.neg_le_neg_iff]

/-- Rows of one key are rows of one duration. -/
theorem filter_duration (order : SortOrder) (rows : List HistogramRow) (duration : Int) :
    rows.filter (·.duration = duration) =
      rows.filter (order.key · = order.key { opid := 0, duration }) := by
  congr 1
  funext row
  cases order with
  | ascending => rfl
  | descending => simp [key]

/-- Sorting arranges rows. -/
theorem arranges_sort (order : SortOrder) (rows : List HistogramRow) :
    order.Arranges rows (order.sort rows) := by
  rw [sort_eq]
  have hordered : (rows.mergeSort fun a b ↦ order.key a ≤ order.key b).Pairwise
      fun a b ↦ order.key a ≤ order.key b := pairwise_mergeSort_key fun _ _ _ _ ↦ rfl
  refine ⟨List.mergeSort_perm rows _, hordered.imp fun h ↦ before_iff.mpr h, fun duration ↦ ?_⟩
  rw [order.filter_duration, order.filter_duration, filter_mergeSort_key]

/-- Rows are arranged in one way only. -/
theorem Arranges.eq_sort (h : order.Arranges rows arranged) : arranged = order.sort rows := by
  have hsort := order.arranges_sort rows
  apply eq_of_filter_key_eq (h.ordered.imp before_iff.mp) (hsort.ordered.imp before_iff.mp)
  intro k
  obtain ⟨duration, rfl⟩ : ∃ duration, order.key { opid := 0, duration } = k := by
    cases order with
    | ascending => exact ⟨k, rfl⟩
    | descending => exact ⟨-k, Int.neg_neg k⟩
  rw [← order.filter_duration, ← order.filter_duration, h.stable, hsort.stable]

end SortOrder

namespace Histogram

def sortBy (order : SortOrder) (histogram : Histogram) : Histogram :=
  { histogram with rows := order.sort histogram.rows }

variable {store : Store} {query : HistogramQuery} {batch : List StateRow} {opids : List OpId}
  {resolutions : List Resolution}

/-- Without a breakdown, a sorted histogram is the unsorted one with its rows sorted. -/
theorem extract_sort (store : Store) (order : SortOrder) (hflat : query.byCategory = false) :
    extract store { query with sort := some order } =
      sortBy order <$> extract store { query with sort := none } := by
  have hvalid (sort : Option SortOrder) :
      HistogramQuery.validate { query with sort } = .ok () := by
    simp [HistogramQuery.validate, hflat]
  simp only [extract, map_bind, map_pure]
  rw [hvalid, hvalid]
  rfl

theorem opid_of_resolveFrom_eq {opid : OpId} {resolution : Resolution}
    (h : resolveFrom store batch opid = .ok resolution) : resolution.opid = opid := by
  unfold resolveFrom at h
  split at h
  · next span hspan =>
    cases h
    exact Resolution.opid_of_ofStates hspan
  · obtain ⟨states, -, h⟩ := bind_eq_ok.mp h
    rw [← pure_eq_ok.mp h, Resolution.opid_ofStates]

/-- What is resolved is about the operations, one after the other. -/
theorem map_opid_of_resolveAll (h : resolveAll store batch opids = .ok resolutions) :
    resolutions.map (·.opid) = opids := by
  induction opids generalizing resolutions with
  | nil =>
    cases h
    rfl
  | cons opid opids ih =>
    obtain ⟨first, hfirst, h⟩ := bind_eq_ok.mp h
    obtain ⟨rest, hrest, h⟩ := bind_eq_ok.mp h
    rw [← pure_eq_ok.mp h, List.map_cons, opid_of_resolveFrom_eq hfirst, ih hrest]

/-- The rows of an unsorted histogram stand in the order of selection. -/
theorem sublist_select_of_extract {histogram : Histogram}
    (h : extract store { query with sort := none } = .ok histogram) :
    ∃ pattern opids, query.pattern = .ok pattern ∧ query.select store pattern = .ok opids ∧
      (histogram.rows.map (·.opid)).Sublist opids := by
  obtain ⟨pattern, opids, batch, resolutions, hpattern, hopids, -, hresolutions, hrows⟩ :=
    of_extract h
  refine ⟨pattern, opids, hpattern, hopids, ?_⟩
  rw [hrows, ← map_opid_of_resolveAll hresolutions]
  exact sublist_opids resolutions

/-- What sorting does to a histogram without a breakdown. It fails exactly if the histogram in the
order of selection fails, and in the same way. Otherwise it has the same number of selected
operations and the same findings, and the same rows by duration, those of one duration in the order
of selection. No other list of rows is arranged like this. -/
theorem arranges_of_extract (store : Store) (order : SortOrder) (hflat : query.byCategory = false) :
    (∀ error, extract store { query with sort := some order } = .error error ↔
        extract store { query with sort := none } = .error error) ∧
      ∀ plain, extract store { query with sort := none } = .ok plain →
        (∃ pattern opids, query.pattern = .ok pattern ∧ query.select store pattern = .ok opids ∧
          (plain.rows.map (·.opid)).Sublist opids) ∧
        ∃ sorted, extract store { query with sort := some order } = .ok sorted ∧
          sorted.fnTag = plain.fnTag ∧ sorted.selected = plain.selected ∧
          sorted.findings = plain.findings ∧ order.Arranges plain.rows sorted.rows ∧
          ∀ rows, order.Arranges plain.rows rows → rows = sorted.rows := by
  rw [extract_sort store order hflat]
  constructor
  · intro error
    cases extract store { query with sort := none } <;> simp
  · intro plain hplain
    refine ⟨sublist_select_of_extract hplain, sortBy order plain, ?_, rfl, rfl, rfl, ?_, ?_⟩
    · rw [hplain]
      rfl
    · exact order.arranges_sort plain.rows
    · exact fun rows hrows ↦ hrows.eq_sort

end Histogram

namespace Tied

open Sample

/-- Operations 1 and 3 take equally long, operation 2 takes less, and operation 4 is running. -/
def trace : Trace := .ofRows
  [stateRow 1 0 1 .init "read", stateRow 2 5 2 .init "read", stateRow 3 8 3 .init "read",
    stateRow 4 9 2 .finish "read", stateRow 5 10 1 .finish "read", stateRow 6 18 3 .finish "read",
    stateRow 7 20 4 .init "read"] [] []

def plain : Histogram :=
  { fnTag := "read", selected := 4, rows := [⟨1, 10⟩, ⟨2, 4⟩, ⟨3, 10⟩],
    findings := [.incompleteSpan 4 .finish] }

theorem extract_eq : Histogram.extract trace.toStore Renamed.query = .ok plain := by cbv

end Tied

/-- With the longest in front, operation 1 stays in front of operation 3. -/
theorem Histogram.arranges_of_tied : ∃ sorted,
    extract Tied.trace.toStore { Renamed.query with sort := some .descending } = .ok sorted ∧
      sorted.rows = [⟨1, 10⟩, ⟨3, 10⟩, ⟨2, 4⟩] := by
  obtain ⟨-, sorted, hsorted, -, -, -, -, hunique⟩ :=
    (arranges_of_extract Tied.trace.toStore .descending (rfl : Renamed.query.byCategory = false)).2
      Tied.plain Tied.extract_eq
  have harranges : SortOrder.descending.Arranges Tied.plain.rows [⟨1, 10⟩, ⟨3, 10⟩, ⟨2, 4⟩] := by
    refine ⟨by decide, by simp [SortOrder.Before], fun duration ↦ ?_⟩
    rcases eq_or_ne 4 duration with rfl | hne
    · rfl
    · simp [Tied.plain, List.filter_cons, hne]
  exact ⟨sorted, hsorted, (hunique _ harranges).symm⟩

end OpTrace

import Mathlib
import OpTrace.Histogram.Extract
import OpTrace.Proofs.Sample
import OpTrace.Proofs.Span
import OpTrace.Proofs.Store.Reading

/-!
# Histograms and the resolver

A histogram resolves an operation from its state rows with a matching tag, and from all its state
rows only if those give no span. So a later row under another tag is not seen if the matching rows
give a span already. Such a row can move either end of the span, or turn it around, and then the
histogram shows a duration that the resolver does not give.

A breakdown takes its total from the resolver. The statements here say for each operation which
duration the histogram shows, and exactly when that is the one of the resolver and of the
breakdown.
-/

namespace OpTrace

/-- What the state rows with a matching tag say of an operation. -/
def matchedResolution (states : List StateRow) (hits : String → Bool) (opid : OpId) : Resolution :=
  .ofStates opid (states.filter fun row ↦ hits row.fnTag)

section ReadAll

/-- Resolving one after the other is reading one after the other. -/
theorem Histogram.resolveAll_eq_readAll (store : Store) (batch : List StateRow)
    (opids : List OpId) :
    Histogram.resolveAll store batch opids = readAll (Histogram.resolveFrom store batch) opids := by
  induction opids with
  | nil => rfl
  | cons opid opids ih => rw [resolveAll, readAll, ih]

theorem BreakdownHistogram.breakdownAll_eq_readAll (store : Store) (table : CategoryTable)
    (opids : List OpId) : BreakdownHistogram.breakdownAll store table opids =
      readAll (Breakdown.ofOperation store table) opids := by
  induction opids with
  | nil => rfl
  | cons opid opids ih => rw [breakdownAll, readAll, ih]

end ReadAll

namespace Histogram

variable {store : Store} {hits : TagPattern → String → Bool} {states : List StateRow}
  {query : HistogramQuery} {histogram : Histogram} {pattern : TagPattern} {opids : List OpId}
  {opid : OpId}

theorem mem_arrange {sort : Option SortOrder} {rows : List HistogramRow} {row : HistogramRow} :
    row ∈ arrange sort rows ↔ row ∈ rows := by
  cases sort with
  | none => rfl
  | some order => cases order <;> exact List.mem_mergeSort

theorem rowOf?_eq_some {resolution : Resolution} {row : HistogramRow} :
    rowOf? resolution = some row ↔ ∃ span, resolution = .complete span ∧
      row = { opid := span.opid, duration := span.duration } := by
  cases resolution <;> simp [rowOf?, Resolution.span?, eq_comm]

theorem opid_of_resolveFrom {batch : List StateRow} {span : Span}
    (h : resolveFrom store batch opid = .ok (.complete span)) : span.opid = opid := by
  unfold resolveFrom at h
  split at h
  · next first hfirst =>
    cases h
    exact Resolution.opid_of_ofStates hfirst
  · exact Store.opid_of_resolve h

/-- What is resolved for an operation: what its matching rows say, or else what all its rows say. -/
theorem exists_resolveFrom (h : store.ServesStates hits states) (pattern : TagPattern)
    (opid : OpId) :
    ∃ resolution, resolveFrom store (states.filter fun row ↦ hits pattern row.fnTag) opid =
        .ok resolution ∧
      resolution.duration? = (matchedResolution states (hits pattern) opid).duration?.or
        (Resolution.ofStates opid states).duration? := by
  unfold resolveFrom
  split
  · next span hspan => exact ⟨_, rfl, by rw [matchedResolution, hspan]; rfl⟩
  · next finding hfinding => exact ⟨_, h.resolve opid, by rw [matchedResolution, hfinding]; rfl⟩

/-- The parts of a histogram. -/
theorem of_extract (h : extract store query = .ok histogram) :
    ∃ pattern opids batch resolutions, query.pattern = .ok pattern ∧
      query.select store pattern = .ok opids ∧ store.statesTagged pattern = .ok batch ∧
      resolveAll store batch opids = .ok resolutions ∧
      histogram.rows = arrange query.sort (resolutions.filterMap rowOf?) := by
  obtain ⟨_, -, h⟩ := bind_eq_ok.mp h
  obtain ⟨pattern, hpattern, h⟩ := bind_eq_ok.mp h
  obtain ⟨opids, hopids, h⟩ := bind_eq_ok.mp h
  obtain ⟨batch, hbatch, h⟩ := bind_eq_ok.mp h
  obtain ⟨resolutions, hresolutions, h⟩ := bind_eq_ok.mp h
  obtain rfl := pure_eq_ok.mp h
  exact ⟨pattern, opids, batch, resolutions, hpattern, hopids, lift_eq_ok.mp hbatch,
    lift_eq_ok.mp hresolutions, rfl⟩

/-- The duration that a histogram shows of a selected operation. -/
theorem mem_rows_iff (hserves : store.ServesStates hits states)
    (h : extract store query = .ok histogram) (hpattern : query.pattern = .ok pattern)
    (hopids : query.select store pattern = .ok opids) (hopid : opid ∈ opids) (duration : Int) :
    { opid, duration } ∈ histogram.rows ↔
      (matchedResolution states (hits pattern) opid).duration?.or
        (Resolution.ofStates opid states).duration? = some duration := by
  obtain ⟨_, _, batch, resolutions, hpattern', hopids', hbatch, hresolutions, hrows⟩ := of_extract h
  obtain rfl := Except.ok.inj (hpattern.symm.trans hpattern')
  obtain rfl := Except.ok.inj (hopids.symm.trans hopids')
  obtain rfl := hserves.tagged _ _ hbatch
  rw [resolveAll_eq_readAll] at hresolutions
  obtain ⟨resolution, hresolve, hduration⟩ := exists_resolveFrom hserves pattern opid
  rw [hrows, mem_arrange, List.mem_filterMap, ← hduration, Resolution.duration?_eq_some]
  constructor
  · rintro ⟨other, hother, hrow⟩
    obtain ⟨found, -, hread⟩ := (mem_readAll hresolutions).mp hother
    obtain ⟨span, rfl, heq⟩ := rowOf?_eq_some.mp hrow
    obtain ⟨rfl, rfl⟩ := HistogramRow.mk.inj heq
    rw [← opid_of_resolveFrom hread, hresolve] at hread
    exact ⟨span, Except.ok.inj hread, rfl⟩
  · rintro ⟨span, rfl, rfl⟩
    refine ⟨.complete span, (mem_readAll hresolutions).mpr ⟨opid, hopid, hresolve⟩, ?_⟩
    rw [rowOf?_eq_some]
    exact ⟨span, rfl, by rw [opid_of_resolveFrom hresolve]⟩

end Histogram

namespace BreakdownHistogram

variable {store : Store} {query : HistogramQuery} {table : CategoryTable}
  {breakdowns : BreakdownHistogram} {pattern : TagPattern} {opids : List OpId} {opid : OpId}
  {duration : Int}

/-- The total of a breakdown is the span of its operation, and only an operation without a span has
no breakdown. -/
theorem resolve_of_ofOperation {answer : Option Breakdown × Findings}
    (h : Breakdown.ofOperation store table opid = .ok answer) :
    (∃ breakdown, answer.1 = some breakdown ∧
        store.resolve opid = .ok (.complete breakdown.total)) ∨
      answer.1 = none ∧ ∃ finding, store.resolve opid = .ok (.incomplete finding) := by
  obtain ⟨resolution, hresolve, h⟩ := bind_eq_ok.mp h
  cases resolution with
  | incomplete finding =>
    obtain rfl := pure_eq_ok.mp h
    exact .inr ⟨rfl, finding, hresolve⟩
  | complete total =>
    obtain ⟨⟨breakdown, findings⟩, hspan, h⟩ := bind_eq_ok.mp h
    obtain rfl := pure_eq_ok.mp h
    obtain ⟨visits, -, hvisits⟩ := bind_eq_ok.mp hspan
    obtain ⟨rfl, -⟩ := Prod.mk.inj (pure_eq_ok.mp hvisits)
    exact .inl ⟨_, rfl, hresolve⟩

/-- The durations that breakdowns show are those of the resolver. -/
theorem exists_mem_rows_iff (h : extract store query table = .ok breakdowns)
    (hpattern : query.pattern = .ok pattern) (hopids : query.select store pattern = .ok opids)
    (hopid : opid ∈ opids) :
    (∃ breakdown ∈ breakdowns.rows, breakdown.total.opid = opid ∧
        breakdown.total.duration = duration) ↔
      ∃ span, store.resolve opid = .ok (.complete span) ∧ span.duration = duration := by
  obtain ⟨_, -, h⟩ := bind_eq_ok.mp h
  obtain ⟨_, hpattern', h⟩ := bind_eq_ok.mp h
  obtain rfl := Except.ok.inj (hpattern.symm.trans hpattern')
  obtain ⟨_, hopids', h⟩ := bind_eq_ok.mp h
  obtain rfl := Except.ok.inj (hopids.symm.trans hopids')
  obtain ⟨answers, hanswers, h⟩ := bind_eq_ok.mp h
  obtain rfl := pure_eq_ok.mp h
  rw [lift_eq_ok, breakdownAll_eq_readAll] at hanswers
  simp only [List.mem_filterMap]
  constructor
  · rintro ⟨breakdown, ⟨answer, hanswer, hsome⟩, rfl, rfl⟩
    obtain ⟨found, -, hread⟩ := (mem_readAll hanswers).mp hanswer
    rcases resolve_of_ofOperation hread with ⟨other, hother, hresolve⟩ | ⟨hnone, -⟩
    · obtain rfl := Option.some.inj (hother.symm.trans hsome)
      rw [Store.opid_of_resolve hresolve]
      exact ⟨other.total, hresolve, rfl⟩
    · cases hnone.symm.trans hsome
  · rintro ⟨span, hspan, rfl⟩
    obtain ⟨answer, hread⟩ := exists_read_of_readAll hanswers hopid
    rcases resolve_of_ofOperation hread with ⟨breakdown, hsome, hresolve⟩ | ⟨-, _, hresolve⟩
    · obtain ⟨rfl⟩ := Resolution.complete.inj (Except.ok.inj (hspan.symm.trans hresolve))
      exact ⟨breakdown, ⟨answer, (mem_readAll hanswers).mpr ⟨opid, hopid, hread⟩, hsome⟩,
        Store.opid_of_resolve hresolve, rfl⟩
    · cases hspan.symm.trans hresolve

end BreakdownHistogram

/-- The state rows with a matching tag give no span, or one as long as that of all state rows. -/
def Faithful (states : List StateRow) (hits : String → Bool) (opid : OpId) : Prop :=
  (matchedResolution states hits opid).duration? = none ∨
    (matchedResolution states hits opid).duration? = (Resolution.ofStates opid states).duration?

/-- The times that count are those of rows with a matching tag. -/
theorem faithful_of_lastTime_eq {states : List StateRow} {hits : String → Bool} {opid : OpId}
    (h : ∀ state, lastTime state (statesAbout opid (states.filter fun row ↦ hits row.fnTag)) =
      lastTime state (statesAbout opid states)) : Faithful states hits opid := by
  right
  rw [matchedResolution, Resolution.duration?_ofStates, Resolution.duration?_ofStates, h, h]

theorem or_eq_right_iff {found whole : Option Int} :
    found.or whole = whole ↔ found = none ∨ found = whole := by
  cases found <;> simp

namespace Histogram

/-- The histogram shows of the operation what the resolver says. -/
def Agrees (histogram : Histogram) (store : Store) (opid : OpId) : Prop :=
  ∀ duration, { opid, duration } ∈ histogram.rows ↔
    ∃ span, store.resolve opid = .ok (.complete span) ∧ span.duration = duration

/-- The histogram shows of the operation what its breakdown shows. -/
def AgreesWith (histogram : Histogram) (breakdowns : BreakdownHistogram) (opid : OpId) : Prop :=
  ∀ duration, { opid, duration } ∈ histogram.rows ↔ ∃ breakdown ∈ breakdowns.rows,
    breakdown.total.opid = opid ∧ breakdown.total.duration = duration

/-- What a histogram shows of the selected operations. The matching rows of an operation decide if
they give a span, and otherwise the resolver does. So the histogram agrees with the resolver, and
with a breakdown of the same selection, exactly where the matching rows are faithful; they are where
no later row under another tag changes a time that counts. -/
theorem agrees_iff_faithful {store : Store} {hits : TagPattern → String → Bool}
    {states : List StateRow} {query : HistogramQuery} {histogram : Histogram}
    (hserves : store.ServesStates hits states) (h : extract store query = .ok histogram) :
    ∃ pattern opids, query.pattern = .ok pattern ∧ query.select store pattern = .ok opids ∧
      ∀ opid ∈ opids,
        (∀ duration, { opid, duration } ∈ histogram.rows ↔
          (∃ span, matchedResolution states (hits pattern) opid = .complete span ∧
              span.duration = duration) ∨
            ((matchedResolution states (hits pattern) opid).duration? = none ∧
              ∃ span, store.resolve opid = .ok (.complete span) ∧ span.duration = duration)) ∧
        (histogram.Agrees store opid ↔ Faithful states (hits pattern) opid) ∧
        ((∀ state,
            lastTime state (statesAbout opid (states.filter fun row ↦ hits pattern row.fnTag)) =
              lastTime state (statesAbout opid states)) → histogram.Agrees store opid) ∧
        ∀ sort byCategory table breakdowns,
          BreakdownHistogram.extract store { query with sort, byCategory } table =
            .ok breakdowns →
          (histogram.AgreesWith breakdowns opid ↔ Faithful states (hits pattern) opid) := by
  obtain ⟨pattern, opids, _, _, hpattern, hopids, -⟩ := of_extract h
  refine ⟨pattern, opids, hpattern, hopids, fun opid hopid ↦ ?_⟩
  have hrows := mem_rows_iff hserves h hpattern hopids hopid
  have hresolver (duration : Int) :
      (∃ span, store.resolve opid = .ok (.complete span) ∧ span.duration = duration) ↔
        (Resolution.ofStates opid states).duration? = some duration := by
    rw [hserves.resolve, Resolution.duration?_eq_some]
    simp only [Except.ok.injEq]
  have hagrees : histogram.Agrees store opid ↔ Faithful states (hits pattern) opid := by
    rw [Agrees, Faithful, ← or_eq_right_iff]
    simp only [hrows, hresolver]
    exact ⟨Option.ext, fun heq duration ↦ by rw [heq]⟩
  refine ⟨fun duration ↦ ?_, hagrees, fun hlast ↦ hagrees.mpr (faithful_of_lastTime_eq hlast), ?_⟩
  · rw [hrows, hresolver, ← Resolution.duration?_eq_some, Option.or_eq_some_iff]
  · intro sort byCategory table breakdowns hbreakdowns
    rw [← hagrees, Agrees, AgreesWith]
    simp only [BreakdownHistogram.exists_mem_rows_iff hbreakdowns hpattern hopids hopid]

end Histogram

namespace Renamed

open Sample

/-- Operation 1 finishes a second time under another tag, operation 2 does not. -/
def trace : Trace := .ofRows
  [stateRow 1 0 1 .init "read", stateRow 2 10 1 .finish "read", stateRow 3 20 1 .finish "other",
    stateRow 4 5 2 .init "read", stateRow 5 9 2 .finish "read"] [] []

def query : HistogramQuery := { fnTag := "read" }

def pattern : TagPattern := ⟨"read", by decide⟩

def histogram : Histogram :=
  { fnTag := "read", selected := 2, rows := [⟨1, 10⟩, ⟨2, 4⟩], findings := [] }

theorem extract_eq : Histogram.extract trace.toStore query = .ok histogram := by cbv

theorem pattern_eq : query.pattern = .ok pattern := by cbv

theorem select_eq : query.select trace.toStore pattern = .ok [1, 2] := by cbv

theorem resolve_eq : trace.toStore.resolve 1 = .ok (.complete
    { opid := 1, fnTag := "other", smTag := none, start := 0, finish := 20 }) := by
  cbv

end Renamed

namespace Histogram

/-- The histogram of the trace shows of operation 2 what the resolver says, since all rows match. -/
theorem agrees_of_renamed : Renamed.histogram.Agrees Renamed.trace.toStore 2 := by
  obtain ⟨_, _, hpattern, hopids, hshows⟩ :=
    agrees_iff_faithful Renamed.trace.servesStates Renamed.extract_eq
  obtain rfl := Except.ok.inj (Renamed.pattern_eq.symm.trans hpattern)
  obtain rfl := Except.ok.inj (Renamed.select_eq.symm.trans hopids)
  obtain ⟨-, -, hagrees, -⟩ := hshows 2 (by decide)
  refine hagrees fun state ↦ ?_
  cases state <;> cbv

/-- It shows of operation 1 what the rows tagged `read` say, which is not what the resolver says. -/
theorem not_agrees_of_renamed :
    extract Renamed.trace.toStore Renamed.query = .ok Renamed.histogram ∧
      Renamed.query.select Renamed.trace.toStore Renamed.pattern = .ok [1, 2] ∧
      ¬ Renamed.histogram.Agrees Renamed.trace.toStore 1 := by
  refine ⟨Renamed.extract_eq, Renamed.select_eq, fun hagrees ↦ ?_⟩
  obtain ⟨span, hspan, hduration⟩ := (hagrees 10).mp (by decide)
  cases Renamed.resolve_eq.symm.trans hspan
  exact absurd hduration (by decide)

end Histogram

end OpTrace

import OpTrace.Proofs.Finding
import OpTrace.Proofs.Histogram.Batch

/-!
# Histograms one operation at a time

The histogram of a trace is what comes from looking at each selected operation on its own. The
verdict on an operation asks for its state rows with a matching tag, and for all its state rows if
those give no span. A verdict with a span gives a row, any other one gives a finding, and both are
about the operation.

Rows can be sorted into groups first, one for each operation, and an operation takes its group away
when its turn comes. Since a trace selects no operation twice, that is the same.
-/

namespace OpTrace

/-- Groups rows by operation. A row goes to the end of its group. -/
def groupByOpid (rows : List StateRow) : Std.HashMap OpId (List StateRow) :=
  rows.foldl (fun groups row ↦ groups.insert row.opid (groups.getD row.opid [] ++ [row])) ∅

/-- A group holds the rows of its operation in their order, and there is none without rows. -/
theorem getElem?_groupByOpid (rows : List StateRow) (opid : OpId) :
    (groupByOpid rows)[opid]? =
      if statesAbout opid rows = [] then none else some (statesAbout opid rows) := by
  induction rows using List.reverseRecOn with
  | nil => simp [groupByOpid, statesAbout]
  | append_singleton rows row ih =>
    have hstep : groupByOpid (rows ++ [row]) = (groupByOpid rows).insert row.opid
        ((groupByOpid rows).getD row.opid [] ++ [row]) := by
      simp [groupByOpid]
    rw [hstep, Std.HashMap.getElem?_insert]
    by_cases heq : row.opid = opid
    · have hgroup : (groupByOpid rows).getD opid [] = statesAbout opid rows := by
        rw [Std.HashMap.getD_eq_getD_getElem?, ih]
        split
        · next hnone => rw [hnone]; rfl
        · rfl
      simp [heq, hgroup, statesAbout]
    · simp [heq, ih, statesAbout]

namespace Histogram

/-- Resolves an operation from its group, and from all its rows if there is none. -/
def resolveGroup (store : Store) (opid : OpId) : Option (List StateRow) → StoreResult Resolution
  | some own => resolveFrom store own opid
  | none => store.resolve opid

/-- Resolves operations one after the other, and takes the group of each one away. -/
def resolveGroups (store : Store) (groups : Std.HashMap OpId (List StateRow)) :
    List OpId → StoreResult (List Resolution)
  | [] => .ok []
  | opid :: opids => do
    let first ← resolveGroup store opid groups[opid]?
    let rest ← resolveGroups store (groups.erase opid) opids
    return first :: rest

/-- Extracts the durations of the selected operations by way of groups. -/
def extractByGroups (store : Store) (query : HistogramQuery) : RequestResult Histogram := do
  query.validate
  let pattern ← query.pattern
  let opids ← query.select store pattern
  let batch ← (store.statesTagged pattern).lift
  let resolutions ← (resolveGroups store (groupByOpid batch) opids).lift
  return {
    fnTag := query.fnTag
    selected := opids.length
    rows := arrange query.sort (resolutions.filterMap rowOf?)
    findings := resolutions.filterMap (·.finding?) }

variable {store : Store} {batch : List StateRow} {opids : List OpId} {opid : OpId}

/-- What is resolved from a group is what is resolved from all rows that were grouped. -/
theorem resolveGroup_groupByOpid (store : Store) (batch : List StateRow) (opid : OpId) :
    resolveGroup store opid (groupByOpid batch)[opid]? = resolveFrom store batch opid := by
  rw [getElem?_groupByOpid]
  by_cases hnone : statesAbout opid batch = []
  · have hincomplete : Resolution.ofStates opid batch =
        .incomplete (.incompleteSpan opid .both) := by
      rw [Resolution.ofStates, hnone]
      rfl
    rw [if_pos hnone, resolveGroup, resolveFrom, hincomplete]
  · have hsame : Resolution.ofStates opid (statesAbout opid batch) =
        Resolution.ofStates opid batch := by
      simp [Resolution.ofStates, statesAbout]
    rw [if_neg hnone, resolveGroup, resolveFrom, resolveFrom, hsame]

/-- Taking groups away makes no difference where no operation comes twice. -/
theorem resolveGroups_eq (store : Store) (batch : List StateRow) (h : opids.Nodup) :
    resolveGroups store (groupByOpid batch) opids = resolveAll store batch opids := by
  suffices hall : ∀ groups : Std.HashMap OpId (List StateRow),
      (∀ opid ∈ opids, groups[opid]? = (groupByOpid batch)[opid]?) →
        resolveGroups store groups opids = resolveAll store batch opids from
    hall (groupByOpid batch) fun _ _ ↦ rfl
  induction opids with
  | nil => exact fun _ _ ↦ rfl
  | cons opid opids ih =>
    intro groups hgroups
    obtain ⟨hfirst, hrest⟩ := List.nodup_cons.mp h
    have hlater : ∀ other ∈ opids, (groups.erase opid)[other]? = (groupByOpid batch)[other]? := by
      intro other hother
      have hne : opid ≠ other := fun heq ↦ hfirst (heq ▸ hother)
      rw [Std.HashMap.getElem?_erase, ← hgroups other (List.mem_cons_of_mem _ hother)]
      simp [hne]
    rw [resolveGroups, hgroups opid List.mem_cons_self, resolveGroup_groupByOpid, ih hrest _ hlater,
      resolveAll]

end Histogram

section Select

variable {trace : Trace} {query : HistogramQuery} {pattern : TagPattern} {opids : List OpId}

theorem Window.skip_suffix (window : Window) (opids : List OpId) : window.skip opids <:+ opids := by
  unfold skip
  split
  · exact List.suffix_refl opids
  · exact List.dropWhile_suffix _

theorem Window.apply_prefix_skip (window : Window) (opids : List OpId) :
    window.apply opids <+: window.skip opids := by
  unfold apply
  split
  · exact List.prefix_refl _
  · exact List.take_prefix _ _

theorem Window.sublist_apply (window : Window) (opids : List OpId) :
    (window.apply opids).Sublist opids :=
  (window.apply_prefix_skip opids).sublist.trans (window.skip_suffix opids).sublist

theorem HistogramQuery.eq_singleton_of_selectOnly {store : Store} {opid : OpId}
    (h : query.selectOnly store pattern opid = .ok opids) : opids = [opid] := by
  obtain ⟨states, -, h⟩ := bind_eq_ok.mp h
  split at h
  · exact (pure_eq_ok.mp h).symm
  · cases h

/-- What is selected is the one operation that is asked for, or the window of those that match. -/
theorem HistogramQuery.select_cases {store : Store} (h : query.select store pattern = .ok opids) :
    (∃ opid, opids = [opid]) ∨ store.opidsTagged pattern query.window = .ok opids := by
  have hkept {selected : List OpId} (hselected : (if selected = [] then
      throw (.insufficientData (.nothingSelected query.fnTag)) else pure selected :
        RequestResult (List OpId)) = .ok opids) : selected = opids := by
    split at hselected
    · cases hselected
    · exact pure_eq_ok.mp hselected
  unfold select at h
  split at h
  · next opid _ =>
    obtain ⟨selected, honly, h⟩ := bind_eq_ok.mp h
    exact .inl ⟨opid, (hkept h).symm.trans (eq_singleton_of_selectOnly honly)⟩
  · obtain ⟨selected, hwindow, h⟩ := bind_eq_ok.mp h
    rw [← hkept h]
    exact .inr (lift_eq_ok.mp hwindow)

/-- A trace selects no operation twice. -/
theorem HistogramQuery.nodup_select (h : query.select trace.toStore pattern = .ok opids) :
    opids.Nodup := by
  rcases select_cases h with ⟨opid, rfl⟩ | hwindow
  · exact List.nodup_singleton opid
  · have heq : trace.opidsTagged pattern query.window = opids := Except.ok.inj hwindow
    rw [← heq]
    exact (Trace.nodup_firstAppearances [] _).sublist (query.window.sublist_apply _)

end Select

namespace Histogram

/-- The way over groups gives the same histogram, or fails in the same way. -/
theorem extractByGroups_eq (trace : Trace) (query : HistogramQuery) :
    extractByGroups trace.toStore query = extract trace.toStore query := by
  unfold extractByGroups extract
  congr 1
  funext _
  congr 1
  funext pattern
  cases hopids : query.select trace.toStore pattern with
  | error error => rfl
  | ok opids =>
    have hnodup := HistogramQuery.nodup_select hopids
    simp only [bind, Except.bind]
    cases hbatch : (trace.toStore.statesTagged pattern).lift with
    | error error => rfl
    | ok batch => simp only [resolveGroups_eq trace.toStore batch hnodup]

end Histogram

def Resolution.opid : Resolution → OpId
  | complete span => span.opid
  | incomplete finding => finding.opid

@[simp] theorem Resolution.opid_ofStates (opid : OpId) (rows : List StateRow) :
    (Resolution.ofStates opid rows).opid = opid := by
  cases hresolution : Resolution.ofStates opid rows with
  | complete span => exact Resolution.opid_of_ofStates hresolution
  | incomplete finding => exact (Sighting.discards_of_resolve hresolution).2

namespace Histogram

theorem opid_of_rowOf? {resolution : Resolution} {row : HistogramRow}
    (h : rowOf? resolution = some row) : row.opid = resolution.opid := by
  obtain ⟨span, rfl, rfl⟩ := rowOf?_eq_some.mp h
  rfl

theorem opid_of_finding? {resolution : Resolution} {finding : Finding}
    (h : resolution.finding? = some finding) : finding.opid = resolution.opid := by
  cases resolution with
  | complete span => cases h
  | incomplete other =>
    cases h
    rfl

/-- Each resolution gives a row or a finding. -/
theorem perm_opids (resolutions : List Resolution) :
    ((resolutions.filterMap rowOf?).map (·.opid) ++
      (resolutions.filterMap (·.finding?)).map (·.opid)).Perm (resolutions.map (·.opid)) := by
  induction resolutions with
  | nil => exact .nil
  | cons resolution resolutions ih =>
    cases resolution with
    | complete span => exact ih.cons span.opid
    | incomplete finding => exact List.perm_middle.trans (ih.cons finding.opid)

/-- Rows keep the order of their operations. -/
theorem sublist_opids (resolutions : List Resolution) :
    ((resolutions.filterMap rowOf?).map (·.opid)).Sublist (resolutions.map (·.opid)) := by
  induction resolutions with
  | nil => exact .slnil
  | cons resolution resolutions ih =>
    cases resolution with
    | complete span => exact ih.cons_cons span.opid
    | incomplete finding => exact ih.cons finding.opid

/-- Of distinct operations, what one gives is what is found under its name. -/
theorem filter_opid_filterMap {β : Type} {opids : List OpId} {opid : OpId} {give : OpId → Option β}
    {opidOf : β → OpId} (hgive : ∀ opid b, give opid = some b → opidOf b = opid)
    (hnodup : opids.Nodup) (hopid : opid ∈ opids) :
    (opids.filterMap give).filter (opidOf · = opid) = (give opid).toList := by
  have hswap (opids : List OpId) : (opids.filterMap give).filter (opidOf · = opid) =
      (opids.filter (· = opid)).filterMap give := by
    induction opids with
    | nil => rfl
    | cons first rest ih =>
      rw [List.filter_cons, List.filterMap_cons]
      cases hfirst : give first with
      | none => rcases eq_or_ne first opid with rfl | hne <;> simp_all
      | some b =>
        have hb := hgive first b hfirst
        rcases eq_or_ne first opid with rfl | hne <;> simp_all
  have honce : opids.filter (· = opid) = [opid] := by
    rw [List.filter_eq, List.count_eq_one_of_mem hnodup hopid]
    rfl
  rw [hswap, honce]
  cases hgiven : give opid <;> simp [hgiven]

/-! ## The reference -/

/-- The verdict on an operation from its own state rows: what the rows with a matching tag say, and
what all of them say if those give no span. -/
def verdict (pattern : TagPattern) (opid : OpId) (own : List StateRow) : Resolution :=
  match Resolution.ofStates opid (own.filter fun row ↦ pattern.matchesTag row.fnTag) with
  | .complete span => .complete span
  | .incomplete _ => .ofStates opid own

@[simp] theorem opid_verdict (pattern : TagPattern) (opid : OpId) (own : List StateRow) :
    (verdict pattern opid own).opid = opid := by
  unfold verdict
  split
  · next span hspan => exact Resolution.opid_of_ofStates hspan
  · exact Resolution.opid_ofStates opid own

/-- The histogram of operations that are looked at one by one. -/
def reference (trace : Trace) (fnTag : String) (pattern : TagPattern) (opids : List OpId) :
    Histogram :=
  let verdicts := opids.map fun opid ↦ verdict pattern opid (trace.statesOf opid)
  { fnTag, selected := opids.length, rows := verdicts.filterMap rowOf?,
    findings := verdicts.filterMap (·.finding?) }

/-- Each operation is in a histogram exactly once, as a row or as a finding, and these are what its
own verdict gives. -/
structure Accounts (histogram : Histogram) (opids : List OpId) (verdictOf : OpId → Resolution) :
    Prop where
  nodup : opids.Nodup
  perm : (histogram.rows.map (·.opid) ++ histogram.findings.map (·.opid)).Perm opids
  sublist : (histogram.rows.map (·.opid)).Sublist opids
  selected_eq : histogram.selected = histogram.rows.length + histogram.findings.length
  own : ∀ opid ∈ opids,
    histogram.rows.filter (·.opid = opid) = (rowOf? (verdictOf opid)).toList ∧
      histogram.findings.filter (·.opid = opid) = (verdictOf opid).finding?.toList

variable {trace : Trace} {query : HistogramQuery} {histogram : Histogram} {pattern : TagPattern}
  {opids : List OpId}

theorem accounts_reference (trace : Trace) (fnTag : String) (pattern : TagPattern)
    (h : opids.Nodup) : (reference trace fnTag pattern opids).Accounts opids
      fun opid ↦ verdict pattern opid (trace.statesOf opid) := by
  have hopids : (opids.map fun opid ↦ verdict pattern opid (trace.statesOf opid)).map (·.opid) =
      opids := by
    simp [Function.comp_def]
  have hperm := perm_opids (opids.map fun opid ↦ verdict pattern opid (trace.statesOf opid))
  have hsublist := sublist_opids (opids.map fun opid ↦ verdict pattern opid (trace.statesOf opid))
  rw [hopids] at hperm hsublist
  refine ⟨h, hperm, hsublist, ?_, fun opid hopid ↦ ⟨?_, ?_⟩⟩
  · have hlength := hperm.length_eq
    rw [List.length_append, List.length_map, List.length_map] at hlength
    exact hlength.symm
  · simp only [reference, List.filterMap_map]
    refine filter_opid_filterMap (fun other row hrow ↦ ?_) h hopid
    rw [opid_of_rowOf? hrow, opid_verdict]
  · simp only [reference, List.filterMap_map]
    refine filter_opid_filterMap (fun other finding hfinding ↦ ?_) h hopid
    rw [opid_of_finding? hfinding, opid_verdict]

/-- The running histogram resolves each operation to its verdict. -/
theorem resolveFrom_eq_verdict (trace : Trace) (pattern : TagPattern) (opid : OpId) :
    resolveFrom trace.toStore (trace.statesTagged pattern) opid =
      .ok (verdict pattern opid (trace.statesOf opid)) := by
  have hmatched : Resolution.ofStates opid (trace.statesTagged pattern) =
      Resolution.ofStates opid
        ((trace.statesOf opid).filter fun row ↦ pattern.matchesTag row.fnTag) := by
    simp [Resolution.ofStates, statesAbout, Trace.statesTagged, Trace.statesOf, List.filter_filter,
      Bool.and_comm]
  rw [resolveFrom, verdict, hmatched]
  cases Resolution.ofStates opid
      ((trace.statesOf opid).filter fun row ↦ pattern.matchesTag row.fnTag) with
  | complete span => rfl
  | incomplete finding => rfl

theorem resolveAll_eq_verdicts (trace : Trace) (pattern : TagPattern) (opids : List OpId) :
    resolveAll trace.toStore (trace.statesTagged pattern) opids =
      .ok (opids.map fun opid ↦ verdict pattern opid (trace.statesOf opid)) := by
  induction opids with
  | nil => rfl
  | cons opid opids ih =>
    rw [resolveAll, resolveFrom_eq_verdict, ih]
    rfl

def ofSelection (trace : Trace) (query : HistogramQuery) (pattern : TagPattern)
    (opids : List OpId) : Histogram :=
  let plain := reference trace query.fnTag pattern opids
  { plain with rows := arrange query.sort plain.rows }

/-- A valid query fails if nothing is selected, and otherwise it shows what is selected. -/
theorem extract_eq_ofSelection (hvalid : query.validate = .ok ())
    (hpattern : query.pattern = .ok pattern) :
    extract trace.toStore query =
      ofSelection trace query pattern <$> query.select trace.toStore pattern := by
  have hbatch : (trace.toStore.statesTagged pattern).lift = .ok (trace.statesTagged pattern) := rfl
  unfold extract
  cases hopids : query.select trace.toStore pattern with
  | error error =>
    simp only [hvalid, hpattern, hopids, bind, Except.bind]
    rfl
  | ok opids =>
    simp only [hvalid, hpattern, hopids, hbatch, resolveAll_eq_verdicts, bind, Except.bind]
    rfl

/-- An unsorted histogram is the reference over what is selected. -/
theorem reference_of_extract (hsort : query.sort = none)
    (h : extract trace.toStore query = .ok histogram) :
    ∃ pattern opids, query.pattern = .ok pattern ∧
      query.select trace.toStore pattern = .ok opids ∧
      histogram = reference trace query.fnTag pattern opids := by
  obtain ⟨_, hvalid, hrest⟩ := bind_eq_ok.mp h
  obtain ⟨pattern, hpattern, hrest⟩ := bind_eq_ok.mp hrest
  obtain ⟨opids, hopids, -⟩ := bind_eq_ok.mp hrest
  refine ⟨pattern, opids, hpattern, hopids, ?_⟩
  rw [extract_eq_ofSelection hvalid hpattern, hopids] at h
  rw [← Except.ok.inj h, ofSelection, hsort]
  rfl

/-- What a histogram of a trace is. It is the reference over the selected operations, whether rows
are grouped first or not. Each selected operation has either one row or one finding, and both come
from its own state rows alone: in another trace with the same state rows of that operation it has
the same. -/
theorem eq_reference_of_extract (hsort : query.sort = none)
    (h : extract trace.toStore query = .ok histogram) :
    extractByGroups trace.toStore query = .ok histogram ∧
      ∃ pattern opids, query.pattern = .ok pattern ∧
        query.select trace.toStore pattern = .ok opids ∧
        histogram = reference trace query.fnTag pattern opids ∧
        histogram.Accounts opids (fun opid ↦ verdict pattern opid (trace.statesOf opid)) ∧
        ∀ (other : Trace) histogram' opids', extract other.toStore query = .ok histogram' →
          query.select other.toStore pattern = .ok opids' → ∀ opid ∈ opids, opid ∈ opids' →
          trace.statesOf opid = other.statesOf opid →
          histogram.rows.filter (·.opid = opid) = histogram'.rows.filter (·.opid = opid) ∧
            histogram.findings.filter (·.opid = opid) =
              histogram'.findings.filter (·.opid = opid) := by
  obtain ⟨pattern, opids, hpattern, hopids, hreference⟩ := reference_of_extract hsort h
  have haccounts := accounts_reference trace query.fnTag pattern
    (HistogramQuery.nodup_select hopids)
  rw [← hreference] at haccounts
  refine ⟨(extractByGroups_eq trace query).trans h, pattern, opids, hpattern, hopids, hreference,
    haccounts, fun other histogram' opids' h' hopids' opid hopid hopid' hsame ↦ ?_⟩
  obtain ⟨_, _, hpattern'', hopids'', hreference'⟩ := reference_of_extract hsort h'
  obtain rfl := Except.ok.inj (hpattern.symm.trans hpattern'')
  obtain rfl := Except.ok.inj (hopids'.symm.trans hopids'')
  have haccounts' := accounts_reference other query.fnTag pattern
    (HistogramQuery.nodup_select hopids')
  rw [← hreference'] at haccounts'
  obtain ⟨hrows, hfindings⟩ := haccounts.own opid hopid
  obtain ⟨hrows', hfindings'⟩ := haccounts'.own opid hopid'
  rw [hrows, hfindings, hrows', hfindings', hsame]
  exact ⟨rfl, rfl⟩

end Histogram

namespace Assorted

open Sample

/-- Operation 1 has matching rows for both states, operation 2 finishes under another tag, and
operation 3 does not finish. -/
def trace : Trace := .ofRows
  [stateRow 1 0 1 .init "read", stateRow 2 5 2 .init "read", stateRow 3 8 3 .init "read",
    stateRow 4 9 2 .finish "other", stateRow 5 10 1 .finish "read"] [] []

def histogram : Histogram :=
  { fnTag := "read", selected := 3, rows := [⟨1, 10⟩, ⟨2, 4⟩],
    findings := [.incompleteSpan 3 .finish] }

theorem extract_eq : Histogram.extract trace.toStore Renamed.query = .ok histogram := by cbv

end Assorted

/-- The histogram of the trace is the reference. -/
theorem Histogram.eq_reference_of_assorted : ∃ pattern opids,
    Assorted.histogram = reference Assorted.trace "read" pattern opids ∧
      Assorted.histogram.Accounts opids
        fun opid ↦ verdict pattern opid (Assorted.trace.statesOf opid) := by
  obtain ⟨-, pattern, opids, -, -, hreference, haccounts, -⟩ :=
    eq_reference_of_extract rfl Assorted.extract_eq
  exact ⟨pattern, opids, hreference, haccounts⟩

end OpTrace

import OpTrace.Proofs.Histogram.Reference

/-!
# Selected operations

A trace lists the operations with a matching state row in the order of their first matching rows.
A histogram selects all of them, those inside a window, or a single one. What it shows of an
operation does not depend on what else is selected. So the histogram of a single operation is the
part of the whole histogram that is about the operation, and a window cuts one stretch out of the
rows and one out of the findings. A histogram that would select nothing fails instead.
-/

namespace OpTrace

/-- The operations of the rows, in the order of their first rows. -/
structure InOrderOfAppearance (rows : List StateRow) (opids : List OpId) : Prop where
  mem_iff : ∀ opid, opid ∈ opids ↔ ∃ row ∈ rows, row.opid = opid
  ordered : opids.Pairwise fun a b ↦
    (rows.map (·.opid)).idxOf a < (rows.map (·.opid)).idxOf b

theorem Trace.pairwise_idxOf_firstAppearances (seen opids : List OpId) :
    (firstAppearances seen opids).Pairwise fun a b ↦ opids.idxOf a < opids.idxOf b := by
  induction opids generalizing seen with
  | nil => exact .nil
  | cons first rest ih =>
    -- an operation that is listed later is another one, so its place is one further behind
    have hlater {seen : List OpId} (hseen : first ∈ seen) {opid : OpId}
        (hopid : opid ∈ firstAppearances seen rest) :
        (first :: rest).idxOf opid = rest.idxOf opid + 1 := by
      refine List.idxOf_cons_ne _ fun heq ↦ ?_
      exact (mem_firstAppearances.mp hopid).2 (heq ▸ hseen)
    have hrest {seen : List OpId} (hseen : first ∈ seen) :
        (firstAppearances seen rest).Pairwise fun a b ↦
          (first :: rest).idxOf a < (first :: rest).idxOf b := by
      refine (ih seen).imp_of_mem fun ha hb hlt ↦ ?_
      rw [hlater hseen ha, hlater hseen hb]
      exact Nat.succ_lt_succ hlt
    simp only [firstAppearances]
    split
    · next hseen => exact hrest hseen
    · refine List.pairwise_cons.mpr ⟨fun opid hopid ↦ ?_, hrest List.mem_cons_self⟩
      rw [List.idxOf_cons_self, hlater List.mem_cons_self hopid]
      exact Nat.succ_pos _

/-- Without a window all operations with a matching row are listed. -/
theorem Trace.inOrderOfAppearance (trace : Trace) (pattern : TagPattern) :
    InOrderOfAppearance (trace.statesTagged pattern) (trace.opidsTagged pattern {}) where
  mem_iff opid := by
    change opid ∈ firstAppearances [] _ ↔ _
    simp [mem_firstAppearances]
  ordered := pairwise_idxOf_firstAppearances [] _

namespace Window

/-- The operation is below the start of the window. -/
def IsBelow (window : Window) (opid : OpId) : Prop :=
  ∃ start, window.start = some start ∧ opid < start

/-- The window cuts `inside` out of the operations. It skips those in front of the first one that is
not below its start, and what is left is cut behind as many as it may have. -/
def Cuts (window : Window) (opids inside : List OpId) : Prop :=
  ∃ skipped beyond, opids = skipped ++ inside ++ beyond ∧
    (∀ opid ∈ skipped, window.IsBelow opid) ∧
    (∀ opid, (inside ++ beyond).head? = some opid → ¬window.IsBelow opid) ∧
    (∀ limit, window.limit = some limit →
      inside.length = min limit (inside ++ beyond).length) ∧
    (window.limit = none → beyond = [])

variable {window : Window} {opids : List OpId}

theorem exists_skip (window : Window) (opids : List OpId) :
    ∃ skipped, opids = skipped ++ window.skip opids ∧ (∀ opid ∈ skipped, window.IsBelow opid) ∧
      ∀ opid, (window.skip opids).head? = some opid → ¬window.IsBelow opid := by
  unfold skip IsBelow
  cases window.start with
  | none => exact ⟨[], by simp⟩
  | some start =>
    refine ⟨opids.takeWhile (· < start), List.takeWhile_append_dropWhile.symm, ?_, ?_⟩
    · intro opid hopid
      exact ⟨start, rfl, by simpa using List.mem_takeWhile_imp hopid⟩
    · rintro opid hopid ⟨_, ⟨⟩, hlt⟩
      have hfirst := List.head?_dropWhile_not (· < start) opids
      rw [hopid] at hfirst
      simp [hlt] at hfirst

theorem exists_take (window : Window) (opids : List OpId) :
    ∃ beyond, window.skip opids = window.apply opids ++ beyond ∧
      (∀ limit, window.limit = some limit →
        (window.apply opids).length = min limit (window.skip opids).length) ∧
      (window.limit = none → beyond = []) := by
  unfold apply
  cases window.limit with
  | none => exact ⟨[], by simp⟩
  | some limit =>
    refine ⟨(window.skip opids).drop limit, (List.take_append_drop ..).symm, ?_, nofun⟩
    rintro _ ⟨⟩
    exact List.length_take

/-- Without a start nothing is skipped. -/
theorem skip_eq_of_start_eq_none (h : window.start = none) : window.skip opids = opids := by
  rw [skip, h]

/-- Without a limit nothing is cut behind. -/
theorem apply_eq_of_limit_eq_none (h : window.limit = none) :
    window.apply opids = window.skip opids := by
  rw [apply, h]

/-- A larger limit keeps what is inside and may add to its end. -/
theorem apply_prefix_apply (opids : List OpId) {limit : Nat} {limit' : Option Nat}
    (hlimit : window.limit = some limit)
    (hle : ∀ larger, limit' = some larger → limit ≤ larger) :
    window.apply opids <+: { window with limit := limit' }.apply opids := by
  have hskip : { window with limit := limit' }.skip opids = window.skip opids := rfl
  unfold apply
  rw [hlimit, hskip]
  cases limit' with
  | none => exact List.take_prefix _ _
  | some larger => exact List.take_prefix_take_left (hle larger rfl)

/-- A window cuts out the operations inside it. -/
theorem cuts_apply (window : Window) (opids : List OpId) :
    window.Cuts opids (window.apply opids) := by
  obtain ⟨skipped, hskipped, hbelow, hfirst⟩ := window.exists_skip opids
  obtain ⟨beyond, hbeyond, hlimit, hnone⟩ := window.exists_take opids
  rw [hbeyond] at hskipped hfirst hlimit
  exact ⟨skipped, beyond, by rw [List.append_assoc, ← hskipped], hbelow, hfirst, hlimit, hnone⟩

end Window

namespace HistogramQuery

def whole (query : HistogramQuery) : HistogramQuery := { query with only := none, window := {} }

variable {trace : Trace} {query : HistogramQuery} {pattern : TagPattern} {opid : OpId}

/-- Without an order nothing excludes a breakdown. -/
theorem validate_of_sort_eq_none (h : query.sort = none) : query.validate = .ok () :=
  if_neg fun hboth ↦ hboth.2 h

/-- Inside a window, what is selected is what the window cuts out, if that is anything. -/
theorem select_eq_of_only_eq_none (trace : Trace) (pattern : TagPattern)
    (honly : query.only = none) :
    query.select trace.toStore pattern =
      if trace.opidsTagged pattern query.window = [] then
        .error (.insufficientData (.nothingSelected query.fnTag))
      else .ok (trace.opidsTagged pattern query.window) := by
  rw [select, honly]
  rfl

/-- An operation is listed if one of its own rows matches. -/
theorem mem_opidsTagged_iff_any : opid ∈ trace.opidsTagged pattern {} ↔
    ((trace.statesOf opid).any fun row ↦ pattern.matchesTag row.fnTag) = true := by
  rw [(trace.inOrderOfAppearance pattern).mem_iff, List.any_eq_true]
  simp only [Trace.statesTagged, Trace.statesOf, List.mem_filter, decide_eq_true_eq]
  constructor
  · rintro ⟨row, ⟨hrow, hmatches⟩, hopid⟩
    exact ⟨row, ⟨hrow, hopid⟩, hmatches⟩
  · rintro ⟨row, ⟨hrow, hopid⟩, hmatches⟩
    exact ⟨row, ⟨hrow, hmatches⟩, hopid⟩

/-- The single operation is selected if it is one of all operations with a matching row. -/
theorem select_eq_of_only_eq_some (trace : Trace) (pattern : TagPattern)
    (honly : query.only = some opid) :
    query.select trace.toStore pattern =
      if opid ∈ trace.opidsTagged pattern {} then .ok [opid]
      else .error (.insufficientData (.otherTag opid query.fnTag)) := by
  rw [select, honly]
  simp only [mem_opidsTagged_iff_any]
  by_cases hany : ((trace.statesOf opid).any fun row ↦ pattern.matchesTag row.fnTag) = true
  · have hsingle : query.selectOnly trace.toStore pattern opid = .ok [opid] := if_pos hany
    rw [hsingle, if_pos hany]
    rfl
  · have hfails : query.selectOnly trace.toStore pattern opid =
        .error (.insufficientData (.otherTag opid query.fnTag)) := if_neg hany
    rw [hfails, if_neg hany]
    rfl

def single (query : HistogramQuery) (opid : OpId) : HistogramQuery :=
  { query with only := some opid }

theorem mem_select_whole_iff :
    (∃ opids, query.whole.select trace.toStore pattern = .ok opids ∧ opid ∈ opids) ↔
      opid ∈ trace.opidsTagged pattern {} := by
  rw [select_eq_of_only_eq_none trace pattern rfl]
  by_cases hnone : trace.opidsTagged pattern query.whole.window = []
  · have hempty : trace.opidsTagged pattern {} = [] := hnone
    simp [hnone, hempty]
  · rw [if_neg hnone]
    simp [whole]

end HistogramQuery

namespace Histogram

variable {trace : Trace} {query : HistogramQuery} {pattern : TagPattern} {opids : List OpId}
  {opid : OpId}

/-- A text that spells no pattern is refused. -/
theorem extract_eq_error_of_pattern {store : Store} {error : RequestError}
    (hvalid : query.validate = .ok ()) (hpattern : query.pattern = .error error) :
    extract store query = .error error := by
  rw [extract, hvalid, hpattern]
  rfl

/-- The histogram of a trace inside a window. -/
theorem extract_of_only_eq_none (hvalid : query.validate = .ok ())
    (hpattern : query.pattern = .ok pattern) (honly : query.only = none) :
    extract trace.toStore query =
      if trace.opidsTagged pattern query.window = [] then
        .error (.insufficientData (.nothingSelected query.fnTag))
      else .ok (ofSelection trace query pattern (trace.opidsTagged pattern query.window)) := by
  rw [extract_eq_ofSelection hvalid hpattern, HistogramQuery.select_eq_of_only_eq_none _ _ honly]
  split <;> rfl

/-- The histogram of a single operation of a trace. -/
theorem extract_single (hvalid : query.validate = .ok ()) (hpattern : query.pattern = .ok pattern)
    (opid : OpId) :
    extract trace.toStore (query.single opid) =
      if opid ∈ trace.opidsTagged pattern {} then .ok (ofSelection trace query pattern [opid])
      else .error (.insufficientData (.otherTag opid query.fnTag)) := by
  have hvalid' : (query.single opid).validate = .ok () := hvalid
  have hpattern' : (query.single opid).pattern = .ok pattern := hpattern
  rw [extract_eq_ofSelection hvalid' hpattern', HistogramQuery.select_eq_of_only_eq_some _ _ rfl]
  split <;> rfl

/-! ## A single operation -/

theorem perm_arrange (sort : Option SortOrder) (rows : List HistogramRow) :
    (arrange sort rows).Perm rows := by
  cases sort with
  | none => exact .refl rows
  | some order => cases order <;> exact List.mergeSort_perm rows _

/-- There is one way to arrange at most one row. -/
theorem eq_toList_of_perm {rows : List HistogramRow} {row? : Option HistogramRow}
    (h : rows.Perm row?.toList) : rows = row?.toList := by
  cases row? with
  | none => exact h.eq_nil
  | some row => exact List.perm_singleton.mp h

/-- What is shown of one of several selected operations. -/
theorem own_ofSelection (trace : Trace) (query : HistogramQuery) (pattern : TagPattern)
    (hnodup : opids.Nodup) (hopid : opid ∈ opids) :
    (ofSelection trace query pattern opids).rows.filter (·.opid = opid) =
        (rowOf? (verdict pattern opid (trace.statesOf opid))).toList ∧
      (ofSelection trace query pattern opids).findings.filter (·.opid = opid) =
        (verdict pattern opid (trace.statesOf opid)).finding?.toList := by
  obtain ⟨hrows, hfindings⟩ :=
    (accounts_reference trace query.fnTag pattern hnodup).own opid hopid
  have hperm := (perm_arrange query.sort (reference trace query.fnTag pattern opids).rows).filter
    (·.opid = opid)
  rw [hrows] at hperm
  exact ⟨eq_toList_of_perm hperm, hfindings⟩

/-- What is shown of an operation that is selected alone. -/
theorem ofSelection_singleton (trace : Trace) (query : HistogramQuery) (pattern : TagPattern)
    (opid : OpId) :
    (ofSelection trace query pattern [opid]).rows =
        (rowOf? (verdict pattern opid (trace.statesOf opid))).toList ∧
      (ofSelection trace query pattern [opid]).findings =
        (verdict pattern opid (trace.statesOf opid)).finding?.toList := by
  have hrows : (reference trace query.fnTag pattern [opid]).rows =
      (rowOf? (verdict pattern opid (trace.statesOf opid))).toList := by
    cases h : rowOf? (verdict pattern opid (trace.statesOf opid)) <;> simp [reference, h]
  have hfindings : (reference trace query.fnTag pattern [opid]).findings =
      (verdict pattern opid (trace.statesOf opid)).finding?.toList := by
    cases h : (verdict pattern opid (trace.statesOf opid)).finding? <;> simp [reference, h]
  have hperm := perm_arrange query.sort (reference trace query.fnTag pattern [opid]).rows
  rw [hrows] at hperm
  refine ⟨eq_toList_of_perm ?_, hfindings⟩
  rw [ofSelection, hrows]
  exact hperm

/-- The histogram of a single operation. It is there exactly if the operation is one of those that
the whole histogram selects, and then it is what the whole histogram shows of the operation. The
window of the query makes no difference to it. -/
theorem single_eq_part_of_whole (trace : Trace) (query : HistogramQuery) (opid : OpId)
    (hvalid : query.validate = .ok ()) :
    (∀ window, extract trace.toStore ({ query with window }.single opid) =
        extract trace.toStore (query.single opid)) ∧
      (∀ error, query.pattern = .error error →
        extract trace.toStore (query.single opid) = .error error ∧
          extract trace.toStore query.whole = .error error) ∧
      ∀ pattern, query.pattern = .ok pattern →
        ((∃ one, extract trace.toStore (query.single opid) = .ok one) ↔
          ∃ opids, query.whole.select trace.toStore pattern = .ok opids ∧ opid ∈ opids) ∧
        (∀ one, extract trace.toStore (query.single opid) = .ok one →
          ∃ all, extract trace.toStore query.whole = .ok all ∧ one.selected = 1 ∧
            one.rows = all.rows.filter (·.opid = opid) ∧
            one.findings = all.findings.filter (·.opid = opid)) ∧
        ((¬∃ opids, query.whole.select trace.toStore pattern = .ok opids ∧ opid ∈ opids) →
          extract trace.toStore (query.single opid) =
            .error (.insufficientData (.otherTag opid query.fnTag))) := by
  have hvalid' : query.whole.validate = .ok () := hvalid
  refine ⟨fun window ↦ rfl, fun error hpattern ↦ ?_, fun pattern hpattern ↦ ?_⟩
  · have hsingle : (query.single opid).validate = .ok () := hvalid
    exact ⟨extract_eq_error_of_pattern hsingle hpattern,
      extract_eq_error_of_pattern hvalid' hpattern⟩
  · have hpattern' : query.whole.pattern = .ok pattern := hpattern
    rw [HistogramQuery.mem_select_whole_iff, extract_single hvalid hpattern,
      extract_of_only_eq_none hvalid' hpattern' rfl]
    by_cases hopid : opid ∈ trace.opidsTagged pattern {}
    · have hsome : trace.opidsTagged pattern query.whole.window ≠ [] := List.ne_nil_of_mem hopid
      rw [if_pos hopid, if_neg hsome]
      refine ⟨iff_of_true ⟨_, rfl⟩ hopid, fun one hone ↦ ?_, fun hnot ↦ absurd hopid hnot⟩
      obtain rfl := Except.ok.inj hone
      have hnodup : (trace.opidsTagged pattern {}).Nodup := Trace.nodup_firstAppearances [] _
      obtain ⟨hrows, hfindings⟩ :=
        own_ofSelection trace query pattern hnodup hopid
      obtain ⟨hrow, hfinding⟩ := ofSelection_singleton trace query pattern opid
      exact ⟨_, rfl, rfl, hrow.trans hrows.symm, hfinding.trans hfindings.symm⟩
    · rw [if_neg hopid]
      refine ⟨iff_of_false ?_ hopid, ?_, fun _ ↦ rfl⟩
      · exact fun ⟨_, hone⟩ ↦ nomatch hone
      · exact fun _ hone ↦ nomatch hone

/-- Operation 2 of the assorted trace is shown alone as it is shown among the others, and so is a
request for an operation that is not there. -/
theorem single_eq_part_of_assorted :
    (∃ one, extract Assorted.trace.toStore (Renamed.query.single 2) = .ok one ∧
        one.rows = [⟨2, 4⟩] ∧ one.findings = []) ∧
      extract Assorted.trace.toStore (Renamed.query.single 4) =
        .error (.insufficientData (.otherTag 4 "read")) := by
  have hselect : Renamed.query.whole.select Assorted.trace.toStore Renamed.pattern =
      .ok [1, 2, 3] := by cbv
  constructor
  · obtain ⟨hthere, hpart, -⟩ := (single_eq_part_of_whole Assorted.trace Renamed.query 2 rfl).2.2
      Renamed.pattern Renamed.pattern_eq
    obtain ⟨one, hone⟩ := hthere.mpr ⟨_, hselect, by decide⟩
    obtain ⟨all, hall, -, hrows, hfindings⟩ := hpart one hone
    cases Assorted.extract_eq.symm.trans hall
    exact ⟨one, hone, hrows, hfindings⟩
  · apply ((single_eq_part_of_whole Assorted.trace Renamed.query 4 rfl).2.2
      Renamed.pattern Renamed.pattern_eq).2.2
    rintro ⟨opids, hopids, hmem⟩
    obtain rfl := Except.ok.inj (hselect.symm.trans hopids)
    exact absurd hmem (by decide)

/-! ## A window -/

theorem reference_append (trace : Trace) (fnTag : String) (pattern : TagPattern)
    (front back : List OpId) :
    (reference trace fnTag pattern (front ++ back)).rows =
        (reference trace fnTag pattern front).rows ++ (reference trace fnTag pattern back).rows ∧
      (reference trace fnTag pattern (front ++ back)).findings =
        (reference trace fnTag pattern front).findings ++
          (reference trace fnTag pattern back).findings := by
  simp [reference]

/-- The rows and the findings are those at the front of another histogram. -/
structure IsFrontOf (part all : Histogram) : Prop where
  rows : part.rows <+: all.rows
  findings : part.findings <+: all.findings

/-- The rows and the findings are those at the end of another histogram. -/
structure IsBackOf (part all : Histogram) : Prop where
  rows : part.rows <:+ all.rows
  findings : part.findings <:+ all.findings

/-- The rows and the findings are one stretch each of another histogram. -/
structure IsStretchOf (part all : Histogram) : Prop where
  rows : part.rows <:+: all.rows
  findings : part.findings <:+: all.findings

theorem isFrontOf_reference (fnTag : String) (pattern : TagPattern) {front opids : List OpId}
    (h : front <+: opids) :
    (reference trace fnTag pattern front).IsFrontOf (reference trace fnTag pattern opids) := by
  obtain ⟨back, rfl⟩ := h
  obtain ⟨hrows, hfindings⟩ := reference_append trace fnTag pattern front back
  exact ⟨⟨_, hrows.symm⟩, ⟨_, hfindings.symm⟩⟩

theorem isBackOf_reference (fnTag : String) (pattern : TagPattern) {back opids : List OpId}
    (h : back <:+ opids) :
    (reference trace fnTag pattern back).IsBackOf (reference trace fnTag pattern opids) := by
  obtain ⟨front, rfl⟩ := h
  obtain ⟨hrows, hfindings⟩ := reference_append trace fnTag pattern front back
  exact ⟨⟨_, hrows.symm⟩, ⟨_, hfindings.symm⟩⟩

theorem IsFrontOf.isStretchOf_of_isBackOf {part middle all : Histogram} (h : part.IsFrontOf middle)
    (hback : middle.IsBackOf all) : part.IsStretchOf all :=
  ⟨h.rows.isInfix.trans hback.rows.isInfix, h.findings.isInfix.trans hback.findings.isInfix⟩

theorem ofSelection_of_sort_eq_none (hsort : query.sort = none) :
    ofSelection trace query pattern opids = reference trace query.fnTag pattern opids := by
  rw [ofSelection, hsort]
  rfl

/-- The unsorted histogram inside a window that holds an operation. -/
theorem extract_of_apply_ne_nil (query : HistogramQuery) (honly : query.only = none)
    (hsort : query.sort = none) (hpattern : query.pattern = .ok pattern)
    (hinside : query.window.apply (trace.opidsTagged pattern {}) ≠ []) :
    extract trace.toStore query = .ok (reference trace query.fnTag pattern
      (query.window.apply (trace.opidsTagged pattern {}))) := by
  have hvalid := HistogramQuery.validate_of_sort_eq_none hsort
  rw [extract_of_only_eq_none hvalid hpattern honly, ofSelection_of_sort_eq_none hsort]
  exact if_neg hinside

/-- The histogram inside a window. It fails exactly if the window is empty. Otherwise its rows and
findings are one stretch each of those of the whole histogram: they are in front if the window has
no start, they go to the end if it has no limit, and a larger limit adds to them at the end. -/
theorem stretch_of_whole (trace : Trace) (query : HistogramQuery) (honly : query.only = none)
    (hsort : query.sort = none) :
    (∀ error, query.pattern = .error error → extract trace.toStore query = .error error) ∧
      ∀ pattern, query.pattern = .ok pattern → ∃ opids inside,
        InOrderOfAppearance (trace.statesTagged pattern) opids ∧
        query.window.Cuts opids inside ∧
        ((∃ shortage, extract trace.toStore query = .error (.insufficientData shortage)) ↔
          inside = []) ∧
        (inside ≠ [] → query.select trace.toStore pattern = .ok inside ∧
          ∃ part all, extract trace.toStore query = .ok part ∧
            extract trace.toStore query.whole = .ok all ∧ part.selected = inside.length ∧
            (part.rows.map (·.opid) ++ part.findings.map (·.opid)).Perm inside ∧
            part.IsStretchOf all ∧
            (query.window.start = none → part.IsFrontOf all) ∧
            (query.window.limit = none → part.IsBackOf all) ∧
            ∀ limit limit', query.window.limit = some limit →
              (∀ larger, limit' = some larger → limit ≤ larger) →
              ∃ more, extract trace.toStore
                  { query with window := { query.window with limit := limit' } } = .ok more ∧
                part.IsFrontOf more) := by
  have hvalid := HistogramQuery.validate_of_sort_eq_none hsort
  refine ⟨fun error hpattern ↦ extract_eq_error_of_pattern hvalid hpattern,
    fun pattern hpattern ↦ ?_⟩
  let opids := trace.opidsTagged pattern {}
  refine ⟨opids, query.window.apply opids, trace.inOrderOfAppearance pattern,
    query.window.cuts_apply opids, ?_, fun hinside ↦ ⟨?_, ?_⟩⟩
  · by_cases hinside : query.window.apply opids = []
    · refine iff_of_true ⟨.nothingSelected query.fnTag, ?_⟩ hinside
      rw [extract_of_only_eq_none hvalid hpattern honly]
      exact if_pos hinside
    · refine iff_of_false (fun ⟨_, hfails⟩ ↦ ?_) hinside
      rw [extract_of_apply_ne_nil query honly hsort hpattern hinside] at hfails
      cases hfails
  · rw [HistogramQuery.select_eq_of_only_eq_none trace pattern honly]
    exact if_neg hinside
  · have hsublist : (query.window.apply opids).Sublist opids := query.window.sublist_apply opids
    have hopids : opids ≠ [] := fun hnil ↦ hinside (List.sublist_nil.mp (hnil ▸ hsublist))
    have hnodup : (query.window.apply opids).Nodup :=
      (Trace.nodup_firstAppearances [] _).sublist hsublist
    have hfront := query.window.apply_prefix_skip opids
    have hback := query.window.skip_suffix opids
    refine ⟨_, _, extract_of_apply_ne_nil query honly hsort hpattern hinside,
      extract_of_apply_ne_nil query.whole rfl hsort hpattern hopids, rfl,
      (accounts_reference trace query.fnTag pattern hnodup).perm, ?_, fun hstart ↦ ?_,
      fun hlimit ↦ ?_, fun limit limit' hlimit hle ↦ ?_⟩
    · exact (isFrontOf_reference _ _ hfront).isStretchOf_of_isBackOf (isBackOf_reference _ _ hback)
    · rw [Window.skip_eq_of_start_eq_none hstart] at hfront
      exact isFrontOf_reference _ _ hfront
    · rw [← Window.apply_eq_of_limit_eq_none hlimit] at hback
      exact isBackOf_reference _ _ hback
    · have hlarger := query.window.apply_prefix_apply opids hlimit hle
      have hmore : { query.window with limit := limit' }.apply opids ≠ [] := fun hnil ↦
        hinside (List.prefix_nil.mp (hnil ▸ hlarger))
      have hextract := extract_of_apply_ne_nil
        { query with window := { query.window with limit := limit' } } honly hsort hpattern hmore
      exact ⟨_, hextract, isFrontOf_reference _ _ hlarger⟩

end Histogram

namespace Unordered

open Sample

/-- The operations 2, 5, 3 and 9 appear in this order, and operation 5 does not finish. -/
def trace : Trace := .ofRows
  [stateRow 1 0 2 .init "read", stateRow 2 5 5 .init "read", stateRow 3 8 3 .init "read",
    stateRow 4 9 2 .finish "read", stateRow 5 10 9 .init "read", stateRow 6 18 3 .finish "read",
    stateRow 7 20 9 .finish "read"] [] []

/-- The window starts at operation 5, and operation 3 is inside it. -/
def query : HistogramQuery := { fnTag := "read", window := { start := some 4, limit := some 2 } }

def whole : Histogram :=
  { fnTag := "read", selected := 4, rows := [⟨2, 9⟩, ⟨3, 10⟩, ⟨9, 10⟩],
    findings := [.incompleteSpan 5 .finish] }

def part : Histogram :=
  { fnTag := "read", selected := 2, rows := [⟨3, 10⟩], findings := [.incompleteSpan 5 .finish] }

theorem extract_whole_eq : Histogram.extract trace.toStore query.whole = .ok whole := by cbv

theorem extract_eq : Histogram.extract trace.toStore query = .ok part := by cbv

end Unordered

/-- The histogram inside the window is a stretch of the whole one. -/
theorem Histogram.isStretchOf_of_unordered : ∃ inside : List OpId, inside.length = 2 ∧
    Unordered.query.select Unordered.trace.toStore Renamed.pattern = .ok inside ∧
    Unordered.part.IsStretchOf Unordered.whole := by
  obtain ⟨opids, inside, -, -, hfails, hpart⟩ :=
    (stretch_of_whole Unordered.trace Unordered.query rfl rfl).2 Renamed.pattern Renamed.pattern_eq
  have hinside : inside ≠ [] := fun hnil ↦ by
    obtain ⟨shortage, hshortage⟩ := hfails.mpr hnil
    cases Unordered.extract_eq.symm.trans hshortage
  obtain ⟨hselect, part, whole, hextract, hwhole, hselected, -, hstretch, -⟩ := hpart hinside
  cases Unordered.extract_eq.symm.trans hextract
  cases Unordered.extract_whole_eq.symm.trans hwhole
  exact ⟨inside, hselected.symm, hselect, hstretch⟩

end OpTrace

import OpTrace.Proofs.CallTree.Bounded
import OpTrace.Proofs.CallTree.Invariant
import OpTrace.Proofs.CallTree.Flow

/-!
# How often a dropped link is found

Each operation of a tree lists the map rows that name it as destination or as clearance operation,
each of them once, and it drops the link of a listed row at most once. So a row is found at most
once for each of its two sides that is in the tree. No operation looks at what another one found:
a row with two sides in the tree can be found twice, and even with the same words.

The bound is kept as a balance. What was found of a row, together with how often the row still
waits to be followed, never exceeds the number of operations in the tree that the row names.
-/

namespace OpTrace

def Finding.dropped? : Finding → Option Int
  | .cycleSkipped map _ _ => some map
  | _ => none

theorem Finding.dropped?_of_discardsSpan {finding : Finding} (h : finding.discardsSpan = true) :
    finding.dropped? = none := by
  cases finding <;> first | rfl | cases h

theorem Finding.dropped?_of_isMarker {finding : Finding} (h : finding.isMarker = true) :
    finding.dropped? = none := by
  cases finding <;> first | rfl | cases h

namespace Findings

/-- The map rows whose links were dropped, one entry for each finding. -/
def dropped (findings : Findings) : List Int := findings.filterMap Finding.dropped?

@[simp] theorem dropped_append (findings more : Findings) :
    dropped (findings ++ more) = findings.dropped ++ more.dropped :=
  List.filterMap_append

theorem dropped_eq_nil {findings : Findings}
    (h : ∀ finding ∈ findings, finding.dropped? = none) : findings.dropped = [] :=
  List.filterMap_eq_nil_iff.mpr h

@[simp] theorem dropped_singleton (map : Int) (src attach : OpId) :
    dropped [.cycleSkipped map src attach] = [map] := rfl

/-- Rows whose links are all dropped are found one by one. -/
theorem dropped_map_cycleSkipped (rows : List MapRow) (opid : OpId) :
    dropped (rows.map fun row ↦ .cycleSkipped row.id row.src opid) = rows.map (·.id) := by
  rw [dropped, List.filterMap_map, ← List.filterMap_eq_map]
  rfl

end Findings

@[simp] theorem Annotations.dropped_findings (opid : OpId) (rows : List AttributeRow) :
    Findings.dropped (Annotations.ofAttributes opid rows).findings = [] :=
  Findings.dropped_eq_nil fun _ hfinding ↦
    Finding.dropped?_of_isMarker (Annotations.isMarker_of_mem_findings hfinding)

/-- A row names an operation as its destination or as its clearance operation. -/
def MapRow.Names (row : MapRow) (opid : OpId) : Prop := row.dst = opid ∨ row.clr = opid

instance (row : MapRow) (opid : OpId) : Decidable (row.Names opid) :=
  inferInstanceAs (Decidable (row.dst = opid ∨ row.clr = opid))

namespace CallTree

/-- Merging sorted rows leaves numbers that go up. -/
theorem pairwise_dropRepeats {rows : List MapRow} (last : Option Int)
    (hsorted : rows.Pairwise (·.id ≤ ·.id)) (hlast : ∀ id ∈ last, ∀ row ∈ rows, id ≤ row.id) :
    (dropRepeats last rows).Pairwise (·.id < ·.id) ∧
      ∀ id ∈ last, ∀ row ∈ dropRepeats last rows, id < row.id := by
  induction rows generalizing last with
  | nil => simp [dropRepeats]
  | cons first rest ih =>
    obtain ⟨hfirst, hrest⟩ := List.pairwise_cons.mp hsorted
    simp only [dropRepeats]
    split
    · exact ih last hrest fun id hid row hrow ↦ hlast id hid row (List.mem_cons_of_mem _ hrow)
    · next hne =>
      have hup : ∀ id ∈ some first.id, ∀ row ∈ rest, id ≤ row.id := by
        intro id hid row hrow
        rw [← Option.some.inj hid]
        exact hfirst row hrow
      obtain ⟨hpairwise, habove⟩ := ih (some first.id) hrest hup
      refine ⟨List.pairwise_cons.mpr ⟨habove first.id rfl, hpairwise⟩, fun id hid row hrow ↦ ?_⟩
      have hlt : id < first.id := by
        apply lt_of_le_of_ne (hlast id hid first List.mem_cons_self)
        rintro rfl
        exact hne hid
      rcases List.mem_cons.mp hrow with rfl | hlater
      · exact hlt
      · exact hlt.trans (habove first.id rfl row hlater)

/-- Merged rows have distinct numbers. -/
theorem nodup_mergeLinks (into clearedBy : List MapRow) :
    ((mergeLinks into clearedBy).map (·.id)).Nodup := by
  have hsorted : ((into ++ clearedBy).mergeSort fun a b ↦ a.id ≤ b.id).Pairwise
      (·.id ≤ ·.id) := Log.pairwise_sortRows (into ++ clearedBy)
  have hup := (pairwise_dropRepeats none hsorted (by simp)).1
  exact (List.pairwise_map.mpr hup).imp Int.ne_of_lt

variable {store : Store} {root : OpId} {tree : CallTree} {maps : List MapRow}

/-- Does a row with the number name the operation? -/
def listed (maps : List MapRow) (id : Int) (opid : OpId) : Bool :=
  maps.any fun row ↦ row.id = id ∧ row.Names opid

/-- An operation lists each row that names it at most once, whether to follow it or as a dropped
link, and no other row. -/
theorem count_of_expansionOf (h : store.Serves maps) {opid : OpId} {expansion : Expansion store}
    {loops : Findings} (hexpansion : expansionOf store opid = .ok (expansion, loops)) (id : Int) :
    loops.dropped.count id + (expansion.links.map (·.id)).count id ≤
      [opid].countP (listed maps id) := by
  obtain ⟨into, clearedBy, hinto, hcleared, hlinks, hloops⟩ := answers_of_expansionOf h hexpansion
  let rows := mergeLinks into clearedBy
  have hsplit : loops.dropped.count id + (expansion.links.map (·.id)).count id =
      (rows.map (·.id)).count id := by
    rw [hloops, hlinks, Findings.dropped_map_cycleSkipped, ← List.count_append, ← List.map_append]
    have hperm := List.filter_append_perm (fun row : MapRow ↦ decide (row.src = opid)) rows
    simpa [rows] using (hperm.map (·.id)).count_eq id
  rw [hsplit]
  by_cases hmem : id ∈ rows.map (·.id)
  · obtain ⟨row, hrow, rfl⟩ := List.mem_map.mp hmem
    obtain ⟨hmaps, hside⟩ := side_of_mem_mergeLinks hinto hcleared hrow
    have hlisted : listed maps row.id opid = true :=
      List.any_eq_true.mpr ⟨row, hmaps, decide_eq_true ⟨rfl, hside⟩⟩
    simpa [hlisted] using List.nodup_iff_count_le_one.mp (nodup_mergeLinks into clearedBy) row.id
  · rw [List.count_eq_zero_of_not_mem hmem]
    exact Nat.zero_le _

/-! ## The balance -/

/-- How often the row with the number waits to be followed. -/
def waitingCount (id : Int) (pending : List (Expansion store)) : Nat :=
  (pending.map fun expansion ↦ (expansion.links.map (·.id)).count id).sum

theorem waitingCount_cons (id : Int) (expansion : Expansion store)
    (pending : List (Expansion store)) : waitingCount id (expansion :: pending) =
      (expansion.links.map (·.id)).count id + waitingCount id pending := by
  rw [waitingCount, List.map_cons, List.sum_cons, waitingCount]

/-- Each finding about a dropped link is about a row, its child, and one of the two operations that
the row names. -/
def SkipsRows (maps : List MapRow) (findings : Findings) : Prop :=
  ∀ map src attach, .cycleSkipped map src attach ∈ findings →
    ∃ row ∈ maps, row.id = map ∧ row.src = src ∧ row.Names attach

/-- A link that an operation drops by itself is that of a row that names it. -/
theorem skipsRows_of_expansionOf (h : store.Serves maps) {opid : OpId}
    {expansion : Expansion store} {loops : Findings}
    (hexpansion : expansionOf store opid = .ok (expansion, loops)) : SkipsRows maps loops := by
  obtain ⟨into, clearedBy, hinto, hcleared, -, rfl⟩ := answers_of_expansionOf h hexpansion
  intro map src attach hfinding
  obtain ⟨row, hrow, heq⟩ := List.mem_map.mp hfinding
  cases heq
  obtain ⟨hmaps, hside⟩ := side_of_mem_mergeLinks hinto hcleared (List.mem_filter.mp hrow).1
  exact ⟨row, hmaps, rfl, rfl, hside⟩

/-- What was found of a row and what still waits of it is covered by the operations that list it,
and nothing was found but of rows. -/
structure Balanced (maps : List MapRow) (tree : CallTree) (pending : List (Expansion store)) :
    Prop where
  bounded : ∀ id, tree.findings.dropped.count id + waitingCount id pending ≤
    tree.opids.countP (listed maps id)
  skips : SkipsRows maps tree.findings

/-- Following a row finds nothing of other rows, and of this one at most once. -/
theorem Growth.Followed.count_le {current : OpId} {growth grown : Growth} {row : MapRow}
    (h : growth.Followed store current row grown) (id : Int) :
    grown.tree.findings.dropped.count id ≤
      growth.tree.findings.dropped.count id + [row.id].count id := by
  cases h with
  | passed _ hgrown =>
    subst hgrown
    exact Nat.le_add_right _ _
  | attached _ _ _ _ _ hattached _ hgrown =>
    subst hgrown
    rw [hattached.findings]
    exact Nat.le_add_right _ _
  | refused _ _ _ hgrown =>
    subst hgrown
    simp
  | discarded _ _ hresolve hgrown =>
    subst hgrown
    have hnone := Finding.dropped?_of_discardsSpan (Store.discards_of_resolve hresolve).1
    simp [Findings.dropped, hnone]
  | entered _ _ _ _ _ _ hattached _ hgrown =>
    subst hgrown
    rw [hattached.findings, findings_addOperation, Findings.dropped_append,
      Annotations.dropped_findings, List.append_nil]
    exact Nat.le_add_right _ _

/-- A link that is dropped while a row is followed is the link of that row. -/
theorem Growth.Followed.eq_of_cycleSkipped {current : OpId} {growth grown : Growth} {row : MapRow}
    (h : growth.Followed store current row grown) {map : Int} {src attach : OpId}
    (hfinding : .cycleSkipped map src attach ∈ grown.tree.findings) :
    .cycleSkipped map src attach ∈ growth.tree.findings ∨
      row.id = map ∧ row.src = src ∧ growth.parentFor current row = attach := by
  cases h with
  | passed _ hgrown =>
    subst hgrown
    exact .inl hfinding
  | attached _ _ _ _ _ hattached _ hgrown =>
    subst hgrown
    exact .inl (hattached.findings ▸ hfinding)
  | refused _ _ _ hgrown =>
    subst hgrown
    refine (List.mem_append.mp hfinding).imp_right fun hnew ↦ ?_
    cases List.mem_singleton.mp hnew
    exact ⟨rfl, rfl, rfl⟩
  | discarded _ _ hresolve hgrown =>
    subst hgrown
    refine (List.mem_append.mp hfinding).imp_right fun hnew ↦ ?_
    have hdiscards := (Store.discards_of_resolve hresolve).1
    rw [← List.mem_singleton.mp hnew] at hdiscards
    cases hdiscards
  | entered _ _ _ _ _ _ hattached _ hgrown =>
    subst hgrown
    rw [hattached.findings, findings_addOperation] at hfinding
    exact .inl ((List.mem_append.mp hfinding).resolve_right
      (Annotations.cycleSkipped_notMem_findings map src attach))

/-- Following rows finds each of them at most once. -/
theorem dropped_of_followAll (h : store.Serves maps) {rejected : List OpId}
    {next : Expansion store} {pending : List (Expansion store)} {grown : Growth}
    (hinvariant : Invariant store root tree rejected (next :: pending))
    (hskips : SkipsRows maps tree.findings)
    (hgrown : Growth.followAll store next.opid { tree, rejected } next.links = .ok grown) :
    (∀ id, grown.tree.findings.dropped.count id ≤
      tree.findings.dropped.count id + (next.links.map (·.id)).count id) ∧
      SkipsRows maps grown.tree.findings := by
  obtain ⟨hcurrent, loops, hexpansion⟩ := hinvariant.waiting next List.mem_cons_self
  refine (hinvariant.follow_induction (motive := fun done growth ↦
      (∀ id, growth.tree.findings.dropped.count id ≤
        tree.findings.dropped.count id + (done.map (·.id)).count id) ∧
      SkipsRows maps growth.tree.findings) (List.Subset.refl _) ?_
    ⟨fun id ↦ Nat.le_add_right _ _, hskips⟩ hgrown).2
  rintro done row growth later hrow hprogress hfollowed ⟨hcount, hskips⟩
  refine ⟨fun id ↦ ?_, fun map src attach hfinding ↦ ?_⟩
  · calc
      later.tree.findings.dropped.count id
          ≤ growth.tree.findings.dropped.count id + [row.id].count id := hfollowed.count_le id
      _ ≤ tree.findings.dropped.count id + (done.map (·.id)).count id + [row.id].count id :=
        Nat.add_le_add_right (hcount id) _
      _ = tree.findings.dropped.count id + ((done ++ [row]).map (·.id)).count id := by
        rw [List.map_append, List.count_append, List.map_singleton, Nat.add_assoc]
  · rcases hfollowed.eq_of_cycleSkipped hfinding with hold | ⟨rfl, rfl, rfl⟩
    · exact hskips map src attach hold
    · obtain ⟨hmaps, hsides⟩ := mem_of_mem_links h hexpansion hrow
      refine ⟨row, hmaps, rfl, rfl, ?_⟩
      rcases growth.parentFor_eq next.opid row with heq | ⟨heq, -⟩
      · exact .inr heq.symm
      · rw [heq]
        exact hsides

/-- The operations that entered the tree list what names them. -/
theorem dropped_of_prepare (h : store.Serves maps) {prepared : CallTree}
    {pending waiting : List (Expansion store)} {opids : List OpId}
    (hskips : SkipsRows maps tree.findings)
    (hprepared : prepare store tree pending opids = .ok (prepared, waiting)) :
    (∀ id, prepared.findings.dropped.count id + waitingCount id waiting ≤
      tree.findings.dropped.count id + waitingCount id pending + opids.countP (listed maps id)) ∧
      SkipsRows maps prepared.findings := by
  induction opids generalizing prepared waiting with
  | nil =>
    cases hprepared
    exact ⟨fun id ↦ Nat.le_add_right _ _, hskips⟩
  | cons opid opids ih =>
    obtain ⟨⟨below, later⟩, hbelow, hprepared⟩ := bind_eq_ok.mp hprepared
    obtain ⟨⟨expansion, loops⟩, hexpansion, hprepared⟩ := bind_eq_ok.mp hprepared
    obtain ⟨rfl, rfl⟩ := Prod.mk.inj (pure_eq_ok.mp hprepared)
    obtain ⟨hcount, hskips'⟩ := ih hbelow
    refine ⟨fun id ↦ ?_, fun map src attach hfinding ↦ ?_⟩
    · have hbefore := hcount id
      have hown := count_of_expansionOf h hexpansion id
      rw [findings_report, Findings.dropped_append, List.count_append, waitingCount_cons]
      calc
        _ = (below.findings.dropped.count id + waitingCount id later) +
            (loops.dropped.count id + (expansion.links.map (·.id)).count id) := by omega
        _ ≤ (tree.findings.dropped.count id + waitingCount id pending +
              opids.countP (listed maps id)) + [opid].countP (listed maps id) :=
          Nat.add_le_add hbefore hown
        _ = _ := by
          rw [Nat.add_assoc, ← List.countP_append,
            (List.perm_append_singleton opid opids).countP_eq]
    · rcases List.mem_append.mp hfinding with hold | hnew
      · exact hskips' map src attach hold
      · exact skipsRows_of_expansionOf h hexpansion map src attach hnew

/-- The balance holds of a tree with one operation. -/
theorem balanced_start (h : store.Serves maps) {expansion : Expansion store} {loops : Findings}
    {span : Span} {attributes : List AttributeRow}
    (hexpansion : expansionOf store root = .ok (expansion, loops)) (hspan : span.opid = root) :
    Balanced maps (start root loops span attributes) [expansion] where
  bounded id := by
    rw [start, opids_addOperation, findings_addOperation, Findings.dropped_append,
      Annotations.dropped_findings, List.append_nil, hspan, waitingCount_cons]
    exact count_of_expansionOf h hexpansion id
  skips map src attach hfinding := by
    have hloops := (List.mem_append.mp hfinding).resolve_right
      (Annotations.cycleSkipped_notMem_findings map src attach)
    exact skipsRows_of_expansionOf h hexpansion map src attach hloops

/-- The expansion of one operation keeps the balance. -/
theorem balanced_step (h : store.Serves maps) {rejected : List OpId} {next : Expansion store}
    {pending waiting : List (Expansion store)} {grown : Growth} {prepared : CallTree}
    (hinvariant : Invariant store root tree rejected (next :: pending))
    (hbalanced : Balanced maps tree (next :: pending))
    (hgrown : Growth.followAll store next.opid { tree, rejected } next.links = .ok grown)
    (hprepared : prepare store grown.tree pending grown.entered = .ok (prepared, waiting)) :
    Balanced maps prepared waiting := by
  obtain ⟨hfollowed, hskips⟩ := dropped_of_followAll h hinvariant hbalanced.skips hgrown
  obtain ⟨hcount, hskips'⟩ := dropped_of_prepare h hskips hprepared
  obtain ⟨more, hopids, hentered, -⟩ := Growth.opids_of_followAll hgrown
  rw [List.nil_append] at hentered
  refine ⟨fun id ↦ ?_, hskips'⟩
  have hbefore := hbalanced.bounded id
  rw [waitingCount_cons] at hbefore
  calc
    prepared.findings.dropped.count id + waitingCount id waiting
        ≤ grown.tree.findings.dropped.count id + waitingCount id pending +
          grown.entered.countP (listed maps id) := hcount id
    _ ≤ (tree.findings.dropped.count id + (next.links.map (·.id)).count id) +
          waitingCount id pending + more.countP (listed maps id) := by
      rw [hentered]
      exact Nat.add_le_add_right (Nat.add_le_add_right (hfollowed id) _) _
    _ ≤ tree.opids.countP (listed maps id) + more.countP (listed maps id) :=
      Nat.add_le_add_right (by rwa [Nat.add_assoc]) _
    _ = prepared.opids.countP (listed maps id) := by
      rw [opids_of_prepare hprepared, hopids, List.countP_append]

theorem balanced_of_build (h : store.Serves maps) (hbuild : build store root = .ok tree) :
    Balanced maps tree ([] : List (Expansion store)) := by
  obtain ⟨attributes, expansion, loops, span, hattributes, hexpansion, hresolve, hrun⟩ :=
    of_build hbuild
  have hspan := Store.opid_of_resolve hresolve
  obtain ⟨-, -, hbalanced⟩ := expandAll_induction
    (motive := fun tree rejected pending ↦
      Invariant store root tree rejected pending ∧ Balanced maps tree pending)
    (fun _ _ _ _ _ _ _ hkept hgrown hprepared ↦
      ⟨invariant_step hkept.1 hgrown hprepared, balanced_step h hkept.1 hkept.2 hgrown hprepared⟩)
    ⟨invariant_start hattributes hexpansion hresolve, balanced_start h hexpansion hspan⟩ hrun
  exact hbalanced

/-- How often the tree says that the link of a row was dropped: at most once for each operation of
the tree that the row names. -/
structure SkippedBySide (tree : CallTree) (row : MapRow) : Prop where
  count_le : tree.findings.dropped.count row.id ≤ tree.opids.countP fun opid ↦ row.Names opid
  count_le_two : tree.findings.dropped.count row.id ≤ 2
  count_le_one : row.dst = row.clr ∨ row.dst ∉ tree.opids ∨ row.clr ∉ tree.opids →
    tree.findings.dropped.count row.id ≤ 1

/-- A row names no more distinct operations than there are to choose from. -/
theorem countP_names_le {opids : List OpId} {row : MapRow} (few : List OpId)
    (hnodup : opids.Nodup) (hfew : ∀ opid ∈ opids, row.Names opid → opid ∈ few) :
    (opids.countP fun opid ↦ row.Names opid) ≤ few.length := by
  have hsub : (opids.filter fun opid ↦ row.Names opid) ⊆ few := by
    intro opid hopid
    obtain ⟨hin, hnames⟩ := List.mem_filter.mp hopid
    exact hfew opid hin (of_decide_eq_true hnames)
  rw [List.countP_eq_length_filter]
  exact (List.subperm_of_subset (hnodup.filter _) hsub).length_le

/-- If a row has one side only, or one only among the operations, it names at most one of them. -/
theorem countP_names_le_one {opids : List OpId} {row : MapRow} (hnodup : opids.Nodup)
    (hside : row.dst = row.clr ∨ row.dst ∉ opids ∨ row.clr ∉ opids) :
    (opids.countP fun opid ↦ row.Names opid) ≤ 1 := by
  rcases hside with heq | hout | hout
  · refine countP_names_le [row.clr] hnodup fun opid _ hnames ↦ ?_
    rcases hnames with rfl | rfl <;> simp [heq]
  · refine countP_names_le [row.clr] hnodup fun opid hin hnames ↦ ?_
    rcases hnames with rfl | rfl
    · exact absurd hin hout
    · exact List.mem_singleton_self _
  · refine countP_names_le [row.dst] hnodup fun opid hin hnames ↦ ?_
    rcases hnames with rfl | rfl
    · exact List.mem_singleton_self _
    · exact absurd hin hout

/-- Each finding about a dropped link comes from a map row, and names its child and one of the two
operations that it names. Each row is found at most once for each of these two that is in the
tree. -/
theorem skips_of_build (h : store.Serves maps) (hids : (maps.map (·.id)).Nodup)
    (hbuild : build store root = .ok tree) :
    SkipsRows maps tree.findings ∧ ∀ row ∈ maps, tree.SkippedBySide row := by
  have hbalanced := balanced_of_build h hbuild
  obtain ⟨rejected, hinvariant⟩ := invariant_of_build hbuild
  refine ⟨hbalanced.skips, fun row hrow ↦ ?_⟩
  have hlisted : listed maps row.id = fun opid ↦ decide (row.Names opid) := by
    funext opid
    rw [listed, Bool.eq_iff_iff, List.any_eq_true, decide_eq_true_iff]
    constructor
    · rintro ⟨other, hother, hboth⟩
      obtain ⟨heq, hnames⟩ := of_decide_eq_true hboth
      exact List.inj_on_of_nodup_map hids hother hrow heq ▸ hnames
    · exact fun hnames ↦ ⟨row, hrow, decide_eq_true ⟨rfl, hnames⟩⟩
  have hcount := hbalanced.bounded row.id
  rw [hlisted] at hcount
  have hle := (Nat.le_add_right _ _).trans hcount
  have hnodup := hinvariant.recorded.sound.nodup
  refine ⟨hle, hle.trans ?_, fun hside ↦ hle.trans (countP_names_le_one hnodup hside)⟩
  refine countP_names_le [row.dst, row.clr] hnodup fun opid _ hnames ↦ ?_
  rcases hnames with rfl | rfl <;> simp

end CallTree

namespace Twofold

open Sample

/-- Operation 1 is the root of 2 and 3. Row 2 asks for operation 2 to hang off itself, and row 4
for the root to hang off 3; both rows have their two sides in the tree. -/
def trace : Trace := .ofRows
  [stateRow 1 0 1 .init, stateRow 2 90 1 .finish, stateRow 3 10 2 .init,
    stateRow 4 20 2 .finish, stateRow 5 30 3 .init, stateRow 6 40 3 .finish]
  [] [mapRow 1 2 1 1, mapRow 2 2 1 2, mapRow 3 3 1 1, mapRow 4 1 2 3]

theorem rows_eq : trace.maps.rows =
    [mapRow 1 2 1 1, mapRow 2 2 1 2, mapRow 3 3 1 1, mapRow 4 1 2 3] := by cbv

theorem nodup_ids : (trace.maps.rows.map (·.id)).Nodup := by
  rw [rows_eq]
  decide

theorem resolve_root : trace.toStore.resolve 1 = .ok (.complete
    { opid := 1, fnTag := "request", smTag := none, start := 0, finish := 90 }) := by
  cbv

theorem exists_tree : ∃ tree, CallTree.build trace.toStore 1 = .ok tree ∧
    tree.findings = [.cycleSkipped 2 2 2, .cycleSkipped 2 2 2, .cycleSkipped 4 1 3,
      .cycleSkipped 4 1 3] := by
  apply CallTree.exists_build_of_treeWithin 3 resolve_root rfl
  cbv

end Twofold

namespace CallTree

/-- The bound of two findings for a row is reached. -/
theorem skips_of_twofold : ∃ tree, build Twofold.trace.toStore 1 = .ok tree ∧
    tree.findings.dropped.count 2 = 2 ∧
    ∀ row ∈ Twofold.trace.maps.rows, tree.SkippedBySide row := by
  obtain ⟨tree, htree, hfindings⟩ := Twofold.exists_tree
  have hskips := skips_of_build Twofold.trace.serves Twofold.nodup_ids htree
  refine ⟨tree, htree, ?_, hskips.2⟩
  rw [hfindings]
  rfl

/-- Not every dropped link is found once, though no two rows have the same number. -/
theorem not_nodup_dropped_of_twofold : Twofold.trace.toStore.Serves Twofold.trace.maps.rows ∧
    (Twofold.trace.maps.rows.map (·.id)).Nodup ∧
    ∃ tree, build Twofold.trace.toStore 1 = .ok tree ∧ ¬ tree.findings.dropped.Nodup := by
  obtain ⟨tree, htree, hfindings⟩ := Twofold.exists_tree
  refine ⟨Twofold.trace.serves, Twofold.nodup_ids, tree, htree, ?_⟩
  rw [hfindings]
  decide

end CallTree

end OpTrace

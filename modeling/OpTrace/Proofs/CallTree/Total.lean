import OpTrace.Proofs.CallTree.Run
import OpTrace.Proofs.Store.Serving

/-!
# Trees of stores without failures

A store that serves map rows gives a tree for every operation with a complete span, and for no
other one; what is missing then is said in the answer. If no two map rows have the same number,
the children of an operation are the sources of exactly those rows that name it as destination or
as clearance operation, apart from the operation itself.
-/

namespace OpTrace

open Store

namespace CallTree

variable {store : Store} {maps : List MapRow}

/-- Each number that occurs is kept, unless it is that of the row before. -/
theorem exists_mem_dropRepeats {rows : List MapRow} (last : Option Int) {row : MapRow}
    (h : row ∈ rows) : (∃ kept ∈ dropRepeats last rows, kept.id = row.id) ∨ last = some row.id := by
  induction rows generalizing last with
  | nil => simp at h
  | cons first rest ih =>
    simp only [dropRepeats]
    by_cases hlast : last = some first.id
    · rw [if_pos hlast]
      rcases List.mem_cons.mp h with rfl | hrest
      · exact .inr hlast
      · exact ih last hrest
    · rw [if_neg hlast]
      rcases List.mem_cons.mp h with rfl | hrest
      · exact .inl ⟨row, List.mem_cons_self, rfl⟩
      · rcases ih (some first.id) hrest with ⟨kept, hkept, heq⟩ | heq
        · exact .inl ⟨kept, List.mem_cons_of_mem _ hkept, heq⟩
        · exact .inl ⟨first, List.mem_cons_self, Option.some.inj heq⟩

/-- Merging loses no row if rows with the same number are the same. -/
theorem mem_mergeLinks {into clearedBy : List MapRow}
    (hids : ∀ a ∈ into ++ clearedBy, ∀ b ∈ into ++ clearedBy, a.id = b.id → a = b) {row : MapRow} :
    row ∈ mergeLinks into clearedBy ↔ row ∈ into ∨ row ∈ clearedBy := by
  constructor
  · intro h
    exact List.mem_append.mp (List.mem_mergeSort.mp (mem_of_mem_dropRepeats h))
  · intro h
    have hrow : row ∈ into ++ clearedBy := List.mem_append.mpr h
    rcases exists_mem_dropRepeats none (List.mem_mergeSort.mpr hrow) with
      ⟨kept, hkept, heq⟩ | hnone
    · have hmem := List.mem_mergeSort.mp (mem_of_mem_dropRepeats hkept)
      rw [← hids kept hmem row hrow heq]
      exact hkept
    · cases hnone

/-- Merged rows name the operation on one of the sides that were asked for. -/
theorem side_of_mem_mergeLinks {into clearedBy : List MapRow} {opid : OpId}
    (hinto : ∀ row, row ∈ into ↔ row ∈ maps ∧ row.dst = opid)
    (hcleared : ∀ row, row ∈ clearedBy ↔ row ∈ maps ∧ row.clr = opid) {row : MapRow}
    (h : row ∈ mergeLinks into clearedBy) : row ∈ maps ∧ (row.dst = opid ∨ row.clr = opid) := by
  have hmerged := List.mem_mergeSort.mp (mem_of_mem_dropRepeats h)
  rcases List.mem_append.mp hmerged with hin | hin
  · exact ⟨((hinto row).mp hin).1, .inl ((hinto row).mp hin).2⟩
  · exact ⟨((hcleared row).mp hin).1, .inr ((hcleared row).mp hin).2⟩

/-- What an expansion asked for, all of it rows that name the operation. -/
theorem answers_of_expansionOf (h : store.Serves maps) {opid : OpId}
    {expansion : Expansion store} {loops : Findings}
    (hexpansion : expansionOf store opid = .ok (expansion, loops)) :
    ∃ into clearedBy, (∀ row, row ∈ into ↔ row ∈ maps ∧ row.dst = opid) ∧
      (∀ row, row ∈ clearedBy ↔ row ∈ maps ∧ row.clr = opid) ∧
      expansion.links = (mergeLinks into clearedBy).filter (·.src ≠ opid) ∧
      loops = ((mergeLinks into clearedBy).filter (·.src = opid)).map
        fun row ↦ .cycleSkipped row.id row.src opid := by
  obtain ⟨into, clearedBy, hinto, hcleared, -, hlinks, hloops⟩ := of_expansionOf hexpansion
  obtain ⟨_, hanswer, hmem⟩ := h.into opid
  obtain rfl := Except.ok.inj (hinto.symm.trans hanswer)
  obtain ⟨_, hanswer', hmem'⟩ := h.clearedBy opid
  obtain rfl := Except.ok.inj (hcleared.symm.trans hanswer')
  exact ⟨into, clearedBy, hmem, hmem', hlinks, hloops⟩

/-- Rows that an expansion follows name its operation. -/
theorem mem_of_mem_links (h : store.Serves maps) {opid : OpId} {expansion : Expansion store}
    {loops : Findings} (hexpansion : expansionOf store opid = .ok (expansion, loops)) {row : MapRow}
    (hrow : row ∈ expansion.links) : row ∈ maps ∧ (row.dst = opid ∨ row.clr = opid) := by
  obtain ⟨into, clearedBy, hinto, hcleared, hlinks, -⟩ := answers_of_expansionOf h hexpansion
  rw [hlinks, List.mem_filter] at hrow
  exact side_of_mem_mergeLinks hinto hcleared hrow.1

/-- If no two rows have the same number, the rows that an expansion follows or finds are those that
name the operation. -/
theorem mem_of_expansionOf (h : store.Serves maps) (hids : (maps.map (·.id)).Nodup)
    {opid : OpId} {expansion : Expansion store} {loops : Findings}
    (hexpansion : expansionOf store opid = .ok (expansion, loops)) (row : MapRow) :
    (row ∈ expansion.links ↔ row ∈ maps ∧ (row.dst = opid ∨ row.clr = opid) ∧ row.src ≠ opid) ∧
      (row ∈ maps → (row.dst = opid ∨ row.clr = opid) → row.src = opid →
        .cycleSkipped row.id row.src opid ∈ loops) := by
  obtain ⟨into, clearedBy, hinto, hcleared, hlinks, hloops⟩ := answers_of_expansionOf h hexpansion
  have hsame (a : MapRow) (ha : a ∈ into ++ clearedBy) (b : MapRow) (hb : b ∈ into ++ clearedBy)
      (heq : a.id = b.id) : a = b := by
    have hin {row : MapRow} (hrow : row ∈ into ++ clearedBy) : row ∈ maps := by
      rcases List.mem_append.mp hrow with hrow | hrow
      · exact ((hinto row).mp hrow).1
      · exact ((hcleared row).mp hrow).1
    exact List.inj_on_of_nodup_map hids (hin ha) (hin hb) heq
  have hmerged : row ∈ mergeLinks into clearedBy ↔
      row ∈ maps ∧ (row.dst = opid ∨ row.clr = opid) := by
    rw [mem_mergeLinks hsame, hinto, hcleared, and_or_left]
  constructor
  · rw [hlinks, List.mem_filter, hmerged, decide_eq_true_iff, and_assoc]
  · intro hrow hside hself
    rw [hloops]
    exact List.mem_map.mpr
      ⟨row, List.mem_filter.mpr ⟨hmerged.mpr ⟨hrow, hside⟩, decide_eq_true hself⟩, rfl⟩

theorem exists_expansionOf (h : store.Serves maps) (opid : OpId) :
    ∃ expansion loops, expansionOf store opid = .ok (expansion, loops) := by
  obtain ⟨into, hinto, -⟩ := h.into opid
  obtain ⟨clearedBy, hcleared, -⟩ := h.clearedBy opid
  unfold expansionOf
  split
  · next error herror => rw [hinto] at herror; cases herror
  · split
    · next error herror => rw [hcleared] at herror; cases herror
    · exact ⟨_, _, rfl⟩

theorem Growth.exists_follow (h : store.Serves maps) (current : OpId) (growth : Growth)
    (row : MapRow) : ∃ grown, growth.follow store current row = .ok grown := by
  obtain ⟨resolution, hresolve⟩ := h.exists_resolve row.src
  obtain ⟨attributes, hattributes⟩ := h.attributes row.src
  unfold follow
  split
  · exact ⟨_, rfl⟩
  · simp only [ite_eq_parentFor]
    split
    · exact ⟨_, rfl⟩
    · rw [hresolve, hattributes]
      cases resolution <;> exact ⟨_, rfl⟩

theorem Growth.exists_followAll (h : store.Serves maps) (current : OpId) (growth : Growth)
    (rows : List MapRow) : ∃ grown, growth.followAll store current rows = .ok grown := by
  induction rows generalizing growth with
  | nil => exact ⟨growth, rfl⟩
  | cons row rows ih =>
    obtain ⟨next, hnext⟩ := exists_follow h current growth row
    obtain ⟨grown, hgrown⟩ := ih next
    exact ⟨grown, bind_eq_ok.mpr ⟨next, hnext, hgrown⟩⟩

theorem exists_prepare (h : store.Serves maps) (tree : CallTree)
    (pending : List (Expansion store)) (opids : List OpId) :
    ∃ prepared waiting, prepare store tree pending opids = .ok (prepared, waiting) := by
  induction opids with
  | nil => exact ⟨tree, pending, rfl⟩
  | cons opid opids ih =>
    obtain ⟨prepared, waiting, hprepared⟩ := ih
    obtain ⟨expansion, loops, hexpansion⟩ := exists_expansionOf h opid
    exact ⟨_, _, bind_eq_ok.mpr ⟨_, hprepared, bind_eq_ok.mpr ⟨_, hexpansion, rfl⟩⟩⟩

theorem exists_expandAll (h : store.Serves maps) (tree : CallTree) (rejected : List OpId)
    (pending : List (Expansion store)) :
    ∃ final, expandAll store tree rejected pending = .ok final := by
  fun_induction expandAll store tree rejected pending with
  | case1 tree => exact ⟨tree, rfl⟩
  | case2 tree rejected next pending error hgrown =>
    obtain ⟨grown, hgrown'⟩ := Growth.exists_followAll h next.opid { tree, rejected } next.links
    rw [hgrown'] at hgrown
    cases hgrown
  | case3 tree rejected next pending grown hgrown error hprepared =>
    obtain ⟨prepared, waiting, hprepared'⟩ := exists_prepare h grown.tree pending grown.entered
    rw [hprepared'] at hprepared
    cases hprepared
  | case4 tree rejected next pending grown hgrown prepared waiting hprepared ih => exact ih

/-- What `build` gives once its first questions are answered. -/
theorem build_eq {root : OpId} {states : List StateRow} {attributes : List AttributeRow}
    {expansion : Expansion store} {loops : Findings} (hstates : store.statesOf root = .ok states)
    (hattributes : store.attributesOf root = .ok attributes)
    (hexpansion : expansionOf store root = .ok (expansion, loops)) :
    build store root =
      if states = [] ∧ attributes = [] ∧ expansion.links = [] then
        .error (.insufficientData (.unknownOperation root))
      else
        match Resolution.ofStates root states with
        | .incomplete finding => .error (.insufficientData (.noSpan root finding))
        | .complete span => (expandAll store (CallTree.addOperation { root, findings := loops } span
            none (Annotations.ofAttributes root attributes)) [] [expansion]).lift := by
  simp only [build, hstates, hattributes, hexpansion, StoreResult.lift, bind, Except.bind]
  split <;> rfl

/-- An operation with a complete span is known, so its tree is the one that grows. -/
theorem build_of_expandAll {root : OpId} {span : Span} {attributes : List AttributeRow}
    {expansion : Expansion store} {loops : Findings} {tree : CallTree}
    (hresolve : store.resolve root = .ok (.complete span))
    (hattributes : store.attributesOf root = .ok attributes)
    (hexpansion : expansionOf store root = .ok (expansion, loops))
    (h : expandAll store (start root loops span attributes) [] [expansion] = .ok tree) :
    build store root = .ok tree := by
  obtain ⟨states, hstates, hspan⟩ := bind_eq_ok.mp hresolve
  have hspan := pure_eq_ok.mp hspan
  have hseen : states ≠ [] := by
    rintro rfl
    cases hspan
  rw [build_eq hstates hattributes hexpansion, if_neg fun hnone ↦ hseen hnone.1, hspan]
  exact lift_eq_ok.mpr h

/-- There is a tree for each operation with a complete span. -/
theorem exists_build_of_resolve (h : store.Serves maps) {root : OpId} {span : Span}
    (hresolve : store.resolve root = .ok (.complete span)) :
    ∃ tree, build store root = .ok tree := by
  obtain ⟨attributes, hattributes⟩ := h.attributes root
  obtain ⟨expansion, loops, hexpansion⟩ := exists_expansionOf h root
  obtain ⟨tree, htree⟩ := exists_expandAll h (start root loops span attributes) [] [expansion]
  exact ⟨tree, build_of_expandAll hresolve hattributes hexpansion htree⟩

/-- An operation without a complete span has no tree, and the answer says what is missing. -/
theorem build_of_resolve_incomplete (h : store.Serves maps) {root : OpId} {finding : Finding}
    (hresolve : store.resolve root = .ok (.incomplete finding)) :
    ∃ shortage, build store root = .error (.insufficientData shortage) := by
  obtain ⟨states, hstates, hfinding⟩ := bind_eq_ok.mp hresolve
  obtain ⟨attributes, hattributes⟩ := h.attributes root
  obtain ⟨expansion, loops, hexpansion⟩ := exists_expansionOf h root
  rw [build_eq hstates hattributes hexpansion, pure_eq_ok.mp hfinding]
  split
  · exact ⟨_, rfl⟩
  · exact ⟨_, rfl⟩

end CallTree

end OpTrace

import OpTrace.Proofs.CallTree.Flow

/-!
# What becomes of a map row

No map row that touches a tree is lost without a trace. Its child is discarded, and one finding
says so, or the child is an operation of the tree. Then it hangs under the clearance operation of
the row, if that is in the tree, and else under the destination; or a finding says that this would
have closed a cycle, and the tree does lead down from the child to that operation.

A row can be met from two sides, and its clearance operation may enter the tree after the row was
met first. The row is followed again when that operation is expanded, which is why the operation
to look at is the one in the final tree.
-/

namespace OpTrace

open Relation

namespace CallTree

/-- The child hangs between the two nodes of the parent. -/
def Joined (tree : CallTree) (parent child : OpId) : Prop :=
  ∃ upper lower, tree.operation? parent = some upper ∧ tree.operation? child = some lower ∧
    Linked tree.links upper.init lower.init ∧ Linked tree.links lower.finish upper.finish

/-- The operation under which the child of a row belongs. -/
def attachPoint (tree : CallTree) (row : MapRow) : OpId :=
  if row.clr ∈ tree.opids then row.clr else row.dst

/-- The attachment that the row asks for was refused, and a finding says so. -/
def Skipped (tree : CallTree) (row : MapRow) : Prop :=
  .cycleSkipped row.id row.src (tree.attachPoint row) ∈ tree.findings

/-- The tree accounts for the row. A child that is not in the tree is discarded by one finding. A
child that is in the tree is joined to the operation under which it belongs, or a finding says that
this was refused, and not both; it is refused only where that operation is below the child. -/
structure Accounted (tree : CallTree) (row : MapRow) : Prop where
  discarded : row.src ∉ tree.opids → tree.findings.discardsOf row.src = 1
  joined_or_skipped : row.src ∈ tree.opids →
    tree.Joined (tree.attachPoint row) row.src ∨ tree.Skipped row
  not_both : ¬ (tree.Joined (tree.attachPoint row) row.src ∧ tree.Skipped row)
  path_of_skipped : tree.Skipped row →
    ReflTransGen tree.Joined row.src (tree.attachPoint row)

section Joined

variable {tree : CallTree} {parent child : OpId}

/-- In a sound tree the link between the `init` nodes is enough. -/
theorem Sound.joined_iff (h : tree.Sound) :
    tree.Joined parent child ↔ tree.Attaches parent child := by
  constructor
  · rintro ⟨upper, lower, hupper, hlower, hlink, -⟩
    obtain ⟨hmem, heq⟩ := mem_of_operation? hupper
    obtain ⟨hmem', heq'⟩ := mem_of_operation? hlower
    exact ⟨upper, hmem, lower, hmem', heq, heq', hlink⟩
  · rintro ⟨upper, hupper, lower, hlower, rfl, rfl, hlink⟩
    exact ⟨upper, lower, h.operation?_of_mem hupper, h.operation?_of_mem hlower, hlink,
      h.mirrored upper hupper lower hlower hlink⟩

theorem attachPoint_mem {row : MapRow} (h : row.dst ∈ tree.opids ∨ row.clr ∈ tree.opids) :
    tree.attachPoint row ∈ tree.opids := by
  unfold attachPoint
  split
  · next hclr => exact hclr
  · next hclr => exact h.resolve_right hclr

theorem attachPoint_eq (tree : CallTree) (row : MapRow) :
    row.dst = tree.attachPoint row ∨ row.clr = tree.attachPoint row := by
  unfold attachPoint
  split
  · exact .inr rfl
  · exact .inl rfl

end Joined

section Rows

variable {store : Store} {root : OpId} {tree : CallTree} {rejected : List OpId} {maps : List MapRow}
  {row : MapRow}

/-- A child that was rejected is no operation of the tree. -/
theorem Recorded.notMem_of_mem_rejected (h : Recorded store root tree rejected) {opid : OpId}
    (hrejected : opid ∈ rejected) : opid ∉ tree.opids := by
  intro hopid
  obtain ⟨operation, hmem, rfl⟩ := exists_of_mem_opids hopid
  obtain ⟨finding, hfinding⟩ := h.rejects _ hrejected
  cases (h.resolved operation hmem).symm.trans hfinding

/-- A row that was followed is settled at the operation under which its child belongs, unless the
child was rejected. -/
theorem settled_of_handled (h : Handled tree rejected (tree.attachPoint row) row) :
    row.src ∈ rejected ∨ tree.Settled (tree.attachPoint row) row := by
  rcases h with hrejected | hsettled | hsettled
  · exact .inl hrejected
  · have hclr : tree.attachPoint row = row.clr := if_pos hsettled.2.1
    exact .inr (hclr ▸ hsettled)
  · exact .inr hsettled

/-- Every row that touches the tree was followed to the end: its child was rejected, or it is
settled. -/
theorem Invariant.settled (h : Invariant store root tree rejected []) (hserves : store.Serves maps)
    (hids : (maps.map (·.id)).Nodup) (hrow : row ∈ maps)
    (htouch : row.dst ∈ tree.opids ∨ row.clr ∈ tree.opids) :
    row.src ∈ rejected ∨ tree.Settled (tree.attachPoint row) row := by
  have hpoint := attachPoint_mem htouch
  obtain ⟨expansion, loops, hexpansion, hloops, hdone⟩ := h.explored _ hpoint
  obtain ⟨hlinks, hself⟩ := mem_of_expansionOf hserves hids hexpansion row
  by_cases hsrc : row.src = tree.attachPoint row
  · -- the row names the operation as its own child
    have hfinding := hloops (hself hrow (tree.attachPoint_eq row) hsrc)
    exact .inr ⟨hsrc ▸ hpoint, hpoint, .inr hfinding⟩
  · have hhandled := hdone.resolve_left List.not_mem_nil row
      (hlinks.mpr ⟨hrow, tree.attachPoint_eq row, hsrc⟩)
    exact settled_of_handled hhandled

/-- A tree accounts for every map row that names one of its operations as destination or as
clearance operation. -/
theorem accounted_of_build (hserves : store.Serves maps) (hids : (maps.map (·.id)).Nodup)
    (h : build store root = .ok tree) (hrow : row ∈ maps)
    (htouch : row.dst ∈ tree.opids ∨ row.clr ∈ tree.opids) : tree.Accounted row := by
  obtain ⟨rejected, hinvariant⟩ := invariant_of_build h
  have hrecorded := hinvariant.recorded
  have hsound := hrecorded.sound
  have hfate := hinvariant.settled hserves hids hrow htouch
  have hpath : tree.Skipped row → ReflTransGen tree.Attaches row.src (tree.attachPoint row) :=
    hrecorded.skips row.id row.src (tree.attachPoint row)
  refine ⟨fun hout ↦ ?_, fun hin ↦ ?_, fun ⟨hjoined, hskipped⟩ ↦ ?_, fun hskipped ↦ ?_⟩
  · have hrejected := hfate.resolve_right fun hsettled ↦ hout hsettled.1
    rw [hrecorded.discards, if_pos hrejected]
  · have hsettled := hfate.resolve_left fun hrejected ↦
      hrecorded.notMem_of_mem_rejected hrejected hin
    exact hsettled.2.2.imp hsound.joined_iff.mpr id
  · exact hsound.acyclic _ (TransGen.head' (hsound.joined_iff.mp hjoined) (hpath hskipped))
  · exact (hpath hskipped).lift id fun _ _ ↦ hsound.joined_iff.mpr

/-- The tree of the tangled trace accounts for all rows. Operation 4 is discarded, the link from 3
back to the root is dropped, and 5 hangs off its clearance operation, which entered the tree after
it. -/
theorem accounted_of_tangled : ∃ tree, build Tangled.trace.toStore 1 = .ok tree ∧
    (∀ row ∈ Tangled.trace.maps.rows, tree.Accounted row) ∧
    tree.findings.discardsOf 4 = 1 ∧
    (tree.Skipped (Sample.mapRow 3 1 3 3) ∧ ReflTransGen tree.Joined 1 3) ∧ tree.Joined 3 5 := by
  obtain ⟨tree, htree, hopids, hfindings, -⟩ := Tangled.exists_tree
  have hall : ∀ row ∈ Tangled.trace.maps.rows, tree.Accounted row := by
    intro row hrow
    refine accounted_of_build Tangled.trace.serves Tangled.nodup_ids htree hrow ?_
    rw [hopids]
    rw [Tangled.rows_eq] at hrow
    revert row
    decide
  have hpoint : tree.attachPoint (Sample.mapRow 3 1 3 3) = 3 ∧
      tree.attachPoint (Sample.mapRow 7 5 1 3) = 3 := by
    rw [attachPoint, attachPoint, hopids]
    decide
  have hskipped : tree.Skipped (Sample.mapRow 3 1 3 3) := by
    rw [Skipped, hpoint.1, hfindings]
    decide
  have hdiscarded := hall (Sample.mapRow 6 4 2 9) (by rw [Tangled.rows_eq]; decide)
  have hdropped := hall (Sample.mapRow 3 1 3 3) (by rw [Tangled.rows_eq]; decide)
  have hlate := hall (Sample.mapRow 7 5 1 3) (by rw [Tangled.rows_eq]; decide)
  refine ⟨tree, htree, hall, hdiscarded.discarded ?_, ⟨hskipped, ?_⟩, ?_⟩
  · rw [hopids]
    decide
  · have hpath := hdropped.path_of_skipped hskipped
    rwa [hpoint.1] at hpath
  · have hin : (Sample.mapRow 7 5 1 3).src ∈ tree.opids := by
      rw [hopids]
      decide
    have hside := hlate.joined_or_skipped hin
    rw [Skipped, hpoint.2, hfindings] at hside
    exact hside.resolve_right (by decide)

end Rows

end CallTree

end OpTrace

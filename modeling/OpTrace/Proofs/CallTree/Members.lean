import OpTrace.Proofs.CallTree.Rows

/-!
# The operations of a call tree

A tree is built exactly if its root has a complete span. Its operations are then the least set
that holds the root and, with an operation, every child with a complete span. A child is the
source of a map row that names the operation as destination or as clearance operation.

So the growth misses nothing and adds nothing, and in which order the rows are met has no
influence on what is in the tree. It only decides where an operation hangs.
-/

namespace OpTrace

/-- The three operations that a map row links. -/
def MapRow.ends (row : MapRow) : OpId × OpId × OpId := (row.src, row.dst, row.clr)

namespace CallTree

/-- The set holds the root, and with an operation every child with a complete span. -/
structure Closed (store : Store) (maps : List MapRow) (root : OpId) (opids : Set OpId) : Prop where
  root_mem : root ∈ opids
  child_mem : ∀ opid ∈ opids, ∀ row ∈ maps, row.dst = opid ∨ row.clr = opid →
    ∀ span, store.resolve row.src = .ok (.complete span) → row.src ∈ opids

/-- The tree consists of the operations below its root, each once. Its nodes are those of the
operations, and they show what the store says of them. -/
structure Complete (store : Store) (maps : List MapRow) (root : OpId) (tree : CallTree) : Prop where
  nodup : tree.opids.Nodup
  isLeast : IsLeast {opids | Closed store maps root opids} {opid | opid ∈ tree.opids}
  numbered : tree.operations.flatMap Operation.nodeIds = List.range tree.nodes.length
  resolved : ∀ operation ∈ tree.operations,
    store.resolve operation.span.opid = .ok (.complete operation.span)
  noted : ∀ operation ∈ tree.operations, ∃ attributes,
    store.attributesOf operation.span.opid = .ok attributes ∧
      tree.Shows operation (Annotations.ofAttributes operation.span.opid attributes)

section Members

variable {store : Store} {root : OpId} {tree : CallTree} {rejected : List OpId} {maps : List MapRow}

/-- The operations of a finished tree are closed under children: the row of a child was followed,
and the child was not rejected. -/
theorem Invariant.closed (h : Invariant store root tree rejected []) (hserves : store.Serves maps)
    (hids : (maps.map (·.id)).Nodup) : Closed store maps root {opid | opid ∈ tree.opids} where
  root_mem := h.recorded.root_eq ▸ h.rooted.root_mem
  child_mem := by
    rintro opid hopid row hrow hside span hresolve
    have htouch : row.dst ∈ tree.opids ∨ row.clr ∈ tree.opids := by
      rcases hside with rfl | rfl
      · exact .inl hopid
      · exact .inr hopid
    rcases h.settled hserves hids hrow htouch with hrejected | hsettled
    · obtain ⟨finding, hfinding⟩ := h.recorded.rejects _ hrejected
      cases hresolve.symm.trans hfinding
    · exact hsettled.1

/-- An operation below the root is in every set that is closed under children. -/
theorem Below.mem_of_closed (hserves : store.Serves maps) (hids : (maps.map (·.id)).Nodup)
    {opids : Set OpId} (hclosed : Closed store maps root opids) {opid : OpId}
    (h : Below store root opid) : opid ∈ opids := by
  induction h with
  | root => exact hclosed.root_mem
  | child _ hexpansion hrow hresolve ih =>
    obtain ⟨hmem, hside, -⟩ := (mem_of_expansionOf hserves hids hexpansion _).1.mp hrow
    exact hclosed.child_mem _ ih _ hmem hside _ hresolve

/-- Every tree that is built is complete. -/
theorem complete_of_build (hserves : store.Serves maps) (hids : (maps.map (·.id)).Nodup)
    (h : build store root = .ok tree) : Complete store maps root tree := by
  obtain ⟨rejected, hinvariant⟩ := invariant_of_build h
  have hrecorded := hinvariant.recorded
  have hclosed : Closed store maps root {opid | opid ∈ tree.opids} :=
    hinvariant.closed hserves hids
  have hleast : {opid | opid ∈ tree.opids} ∈
      lowerBounds {opids | Closed store maps root opids} := by
    intro opids hclosed opid hopid
    exact (hrecorded.below opid hopid).mem_of_closed hserves hids hclosed
  exact ⟨hrecorded.sound.nodup, ⟨hclosed, hleast⟩, hrecorded.sound.numbered, hrecorded.resolved,
    hrecorded.noted⟩

/-- What is closed depends on what the rows link and on what has a span, on nothing else. -/
theorem Closed.of_ends {other : Store} {others : List MapRow} {opids : Set OpId}
    (h : Closed store maps root opids) (hresolve : ∀ opid, other.resolve opid = store.resolve opid)
    (hends : ∀ ends, ends ∈ others.map MapRow.ends → ends ∈ maps.map MapRow.ends) :
    Closed other others root opids where
  root_mem := h.root_mem
  child_mem opid hopid row hrow hside span hspan := by
    obtain ⟨twin, htwin, heq⟩ := List.mem_map.mp (hends _ (List.mem_map_of_mem hrow))
    simp only [MapRow.ends, Prod.mk.injEq] at heq
    obtain ⟨hsrc, hdst, hclr⟩ := heq
    rw [← hsrc] at hspan ⊢
    rw [← hdst, ← hclr] at hside
    exact h.child_mem opid hopid twin htwin hside span (hresolve twin.src ▸ hspan)

/-- Complete trees of stores that link the same operations have the same operations. -/
theorem Complete.opids_perm {other : Store} {others : List MapRow} {twin : CallTree}
    (h : Complete store maps root tree) (h' : Complete other others root twin)
    (hresolve : ∀ opid, other.resolve opid = store.resolve opid)
    (hends : ∀ ends, ends ∈ maps.map MapRow.ends ↔ ends ∈ others.map MapRow.ends) :
    tree.opids.Perm twin.opids := by
  have hclosed := h.isLeast.1.of_ends hresolve fun ends ↦ (hends ends).mpr
  have hclosed' := h'.isLeast.1.of_ends (fun opid ↦ (hresolve opid).symm) fun ends ↦ (hends ends).mp
  exact (List.perm_ext_iff_of_nodup h.nodup h'.nodup).mpr fun opid ↦
    ⟨fun hopid ↦ h.isLeast.2 hclosed' hopid, fun hopid ↦ h'.isLeast.2 hclosed hopid⟩

end Members

/-- A tree is built exactly if the root has a complete span, and what is missing otherwise is said.
The tree is complete. Its operations stay the same if the map rows are numbered differently. -/
theorem build_iff_resolve {store : Store} {maps : List MapRow} (hserves : store.Serves maps)
    (hids : (maps.map (·.id)).Nodup) (root : OpId) :
    ((∃ tree, build store root = .ok tree) ↔
      ∃ span, store.resolve root = .ok (.complete span)) ∧
    ((¬ ∃ span, store.resolve root = .ok (.complete span)) →
      ∃ shortage, build store root = .error (.insufficientData shortage)) ∧
    ∀ tree, build store root = .ok tree → Complete store maps root tree ∧
      ∀ (other : Store) (others : List MapRow) (twin : CallTree), other.Serves others →
        (others.map (·.id)).Nodup → (∀ opid, other.resolve opid = store.resolve opid) →
        (∀ ends, ends ∈ maps.map MapRow.ends ↔ ends ∈ others.map MapRow.ends) →
        build other root = .ok twin → tree.opids.Perm twin.opids := by
  refine ⟨⟨?_, ?_⟩, ?_, ?_⟩
  · rintro ⟨tree, htree⟩
    obtain ⟨_, _, _, span, -, -, hresolve, -⟩ := of_build htree
    exact ⟨span, hresolve⟩
  · rintro ⟨span, hresolve⟩
    exact exists_build_of_resolve hserves hresolve
  · intro hnone
    obtain ⟨resolution, hresolve⟩ := hserves.exists_resolve root
    cases resolution with
    | incomplete finding => exact build_of_resolve_incomplete hserves hresolve
    | complete span => exact absurd ⟨span, hresolve⟩ hnone
  · intro tree htree
    have hcomplete := complete_of_build hserves hids htree
    refine ⟨hcomplete, fun other others twin hserves' hids' hresolve hends htwin ↦ ?_⟩
    exact hcomplete.opids_perm (complete_of_build hserves' hids' htwin) hresolve hends

/-- The tangled trace has a complete tree. -/
theorem complete_of_tangled : ∃ tree, build Tangled.trace.toStore 1 = .ok tree ∧
    Complete Tangled.trace.toStore Tangled.trace.maps.rows 1 tree := by
  obtain ⟨hiff, -, hcomplete⟩ := build_iff_resolve Tangled.trace.serves Tangled.nodup_ids 1
  obtain ⟨tree, htree⟩ := hiff.mpr ⟨_, Tangled.resolve_root⟩
  exact ⟨tree, htree, (hcomplete tree htree).1⟩

end CallTree

end OpTrace

import Mathlib
import OpTrace.Proofs.CallTree.Bounded
import OpTrace.Proofs.CallTree.Invariant
import OpTrace.Proofs.Sample

/-!
# The graph of a call tree

The graph of a tree that `build` gives has no cycle. It flows from the `init` node of the root to
the `finish` node of the root: these are its only source and its only sink, and every node lies on
a path between them. Every other operation hangs between the two nodes of a parent that entered
the tree before it, so the parents lead from each operation to the root.

None of this depends on the map rows. They may link operations in cycles, to themselves and back
to the root.
-/

namespace OpTrace

open Relation

namespace CallTree

/-- The graph has no cycle, and all of it lies between its only source and its only sink. -/
structure Flows (tree : CallTree) (source sink : NodeId) : Prop where
  named : ∀ (place : NodeId) (node : Node), tree.nodes[place]? = some node → node.id = place
  joins : ∀ link ∈ tree.links, link.1 < tree.nodes.length ∧ link.2 < tree.nodes.length
  source_lt : source < tree.nodes.length
  sink_lt : sink < tree.nodes.length
  acyclic : ∀ id, ¬ TransGen (Linked tree.links) id id
  from_source : ∀ id < tree.nodes.length, ReflTransGen (Linked tree.links) source id
  to_sink : ∀ id < tree.nodes.length, ReflTransGen (Linked tree.links) id sink
  source_iff : ∀ id < tree.nodes.length,
    (∀ other, ¬ Linked tree.links other id) ↔ id = source
  sink_iff : ∀ id < tree.nodes.length,
    (∀ other, ¬ Linked tree.links id other) ↔ id = sink

/-- The operation `child` names `parent` as its parent. -/
def HasParent (tree : CallTree) (child parent : OpId) : Prop :=
  ∃ operation, tree.operation? child = some operation ∧ operation.parent = some parent

/-- An operation hangs between the two nodes of the one that it names as its parent. -/
structure HangsOff (tree : CallTree) (operation upper : Operation) : Prop where
  parent_eq : operation.parent = some upper.span.opid
  down : Linked tree.links upper.init operation.init
  up : Linked tree.links operation.finish upper.finish

section Flow

variable {tree : CallTree} {operation upper lower : Operation}

namespace Sound

/-- Each node of an operation lies on a path from its `init` node to its `finish` node. -/
theorem path_inside (h : tree.Sound) (hmem : operation ∈ tree.operations) {id : NodeId}
    (hid : id ∈ operation.nodeIds) :
    ReflTransGen (Linked tree.links) operation.init id ∧
      ReflTransGen (Linked tree.links) id operation.finish := by
  have hthrough : Linked tree.links operation.init operation.finish :=
    h.inner operation hmem _ List.mem_cons_self
  have hchain : ∀ edge ∈ chain operation.init operation.intervals operation.finish,
      Linked tree.links edge.source edge.target := fun edge hedge ↦
    h.inner operation hmem _ (List.mem_cons_of_mem _ (List.mem_map_of_mem (f := Edge.link) hedge))
  simp only [Operation.nodeIds, List.mem_cons] at hid
  rcases hid with rfl | rfl | hin
  · exact ⟨.refl, .single hthrough⟩
  · exact ⟨.single hthrough, .refl⟩
  · obtain ⟨hto, hfrom⟩ := path_of_mem_chain hchain hin
    exact ⟨hto.to_reflTransGen, hfrom.to_reflTransGen⟩

/-- A node stands at the place that it is named by. -/
theorem id_eq_of_getElem? (h : tree.Sound) {place : NodeId} {node : Node}
    (hnode : tree.nodes[place]? = some node) : node.id = place := by
  have hlt : place < tree.nodes.length := (List.getElem?_eq_some_iff.mp hnode).1
  obtain ⟨operation, hmem, hid⟩ := h.lt_length_iff.mp hlt
  obtain ⟨notes, hshows⟩ := h.shown operation hmem
  have hnamed : ∃ other, tree.node? place = some other ∧ other.id = place := by
    simp only [Operation.nodeIds, List.mem_cons] at hid
    rcases hid with rfl | rfl | hin
    · exact ⟨_, hshows.init, rfl⟩
    · exact ⟨_, hshows.finish, rfl⟩
    · obtain ⟨other, hother, hid, -⟩ := hshows.exists_node_of_mem_intervals hin
      exact ⟨other, hother, hid⟩
  obtain ⟨other, hother, hid⟩ := hnamed
  have heq : node = other := Option.some.inj (hnode.symm.trans hother)
  rw [heq, hid]

end Sound

/-- Parents lead to the root, and attachments lead from it. -/
theorem Rooted.path (h : tree.Rooted) (hsound : tree.Sound) {place : Nat}
    (hget : tree.operations[place]? = some operation) :
    ReflTransGen tree.HasParent operation.span.opid tree.root ∧
      ReflTransGen tree.Attaches tree.root operation.span.opid := by
  induction place using Nat.strongRecOn generalizing operation with
  | ind place ih =>
    rcases Nat.eq_zero_or_pos place with rfl | hplace
    · obtain ⟨top, htop, hroot, -⟩ := h.top
      obtain rfl := Option.some.inj (htop.symm.trans hget)
      rw [hroot]
      exact ⟨.refl, .refl⟩
    · obtain ⟨earlier, upper, hbefore, hget', hparent, hlink⟩ := h.under hplace hget
      obtain ⟨hup, hdown⟩ := ih earlier hbefore hget'
      have hmem := List.mem_of_getElem? hget
      have hmem' := List.mem_of_getElem? hget'
      have hstep : tree.HasParent operation.span.opid upper.span.opid :=
        ⟨operation, hsound.operation?_of_mem hmem, hparent⟩
      exact ⟨.head hstep hup, hdown.tail ((hsound.attaches_iff hmem' hmem).mpr hlink)⟩

/-- A graph without cycles whose nodes lie between two nodes has no other source and no other
sink. -/
theorem flows_of_paths {source sink : NodeId} (hsound : tree.Sound)
    (hsource : source < tree.nodes.length) (hsink : sink < tree.nodes.length)
    (hfrom : ∀ id < tree.nodes.length, ReflTransGen (Linked tree.links) source id)
    (hto : ∀ id < tree.nodes.length, ReflTransGen (Linked tree.links) id sink) :
    tree.Flows source sink := by
  have hjoins {node target : NodeId} (hlink : Linked tree.links node target) :
      node < tree.nodes.length ∧ target < tree.nodes.length := by
    obtain ⟨hnode, htarget⟩ := hsound.exists_of_linked hlink
    exact ⟨hsound.lt_length_iff.mpr hnode, hsound.lt_length_iff.mpr htarget⟩
  refine ⟨fun _ _ ↦ hsound.id_eq_of_getElem?, fun _ ↦ hjoins, hsource, hsink, hsound.not_cycle,
    hfrom, hto, fun id hid ↦ ⟨fun hnone ↦ ?_, ?_⟩, fun id hid ↦ ⟨fun hnone ↦ ?_, ?_⟩⟩
  · rcases ReflTransGen.cases_tail (hfrom id hid) with heq | ⟨other, -, hlink⟩
    · exact heq
    · exact absurd hlink (hnone other)
  · rintro rfl other hlink
    exact hsound.not_cycle id (TransGen.tail' (hfrom other (hjoins hlink).1) hlink)
  · rcases ReflTransGen.cases_head (hto id hid) with heq | ⟨other, hlink, -⟩
    · exact heq
    · exact absurd hlink (hnone other)
  · rintro rfl other hlink
    exact hsound.not_cycle id (TransGen.head' hlink (hto other (hjoins hlink).2))

/-- The graph of a sound tree whose operations hang off its root flows through the root. -/
theorem Rooted.flows {top : Operation} (h : tree.Rooted) (hsound : tree.Sound)
    (htop : top ∈ tree.operations) (hroot : top.span.opid = tree.root) :
    tree.Flows top.init top.finish := by
  have hin {id : NodeId} (hid : id ∈ top.nodeIds) : id < tree.nodes.length :=
    hsound.lt_length_iff.mpr ⟨top, htop, hid⟩
  refine flows_of_paths hsound (hin List.mem_cons_self)
    (hin (List.mem_cons_of_mem _ List.mem_cons_self)) (fun id hid ↦ ?_) fun id hid ↦ ?_
  all_goals
    obtain ⟨operation, hmem, hid⟩ := hsound.lt_length_iff.mp hid
    obtain ⟨place, hget⟩ := List.mem_iff_getElem?.mp hmem
    have hbelow : ReflTransGen tree.Attaches top.span.opid operation.span.opid := by
      rw [hroot]
      exact (h.path hsound hget).2
    have hinside := hsound.path_inside hmem hid
  · exact (hsound.path_of_attaches htop hmem hbelow).trans hinside.1
  · exact hinside.2.trans (hsound.path_back_of_attaches htop hmem hbelow)

end Flow

/-- The shape of a tree of operations below `root`, whose nodes `top` names. -/
structure Hierarchy (tree : CallTree) (root : OpId) (top : Operation) : Prop where
  root_eq : tree.root = root
  first : tree.operations[0]? = some top
  opid_eq : top.span.opid = root
  parent_eq : top.parent = none
  flows : tree.Flows top.init top.finish
  hangs : ∀ (place : Nat) (operation : Operation), tree.operations[place]? = some operation →
    operation.span.opid ≠ root → ∃ earlier < place, ∃ upper,
      tree.operations[earlier]? = some upper ∧ tree.HangsOff operation upper
  ascends : ∀ opid ∈ tree.opids, ReflTransGen tree.HasParent opid root

/-- Every tree that is built flows from the `init` to the `finish` node of its root. Each other
operation hangs off an earlier one, and the parents lead to the root. -/
theorem hierarchy_of_build {store : Store} {root : OpId} {tree : CallTree}
    (h : build store root = .ok tree) : ∃ top, tree.Hierarchy root top := by
  obtain ⟨rejected, hinvariant⟩ := invariant_of_build h
  have hsound := hinvariant.recorded.sound
  have hrooted := hinvariant.rooted
  obtain rfl := hinvariant.recorded.root_eq
  obtain ⟨top, htop, hopid, hparent⟩ := hrooted.top
  have hflows := hrooted.flows hsound (List.mem_of_getElem? htop) hopid
  refine ⟨top, rfl, htop, hopid, hparent, hflows, ?_, ?_⟩
  · intro place operation hget hother
    have hplace : 0 < place := by
      rcases Nat.eq_zero_or_pos place with rfl | hpos
      · obtain rfl := Option.some.inj (htop.symm.trans hget)
        exact absurd hopid hother
      · exact hpos
    obtain ⟨earlier, upper, hbefore, hget', hparent', hlink⟩ := hrooted.under hplace hget
    have hmirror := hsound.mirrored upper (List.mem_of_getElem? hget') operation
      (List.mem_of_getElem? hget) hlink
    exact ⟨earlier, hbefore, upper, hget', hparent', hlink, hmirror⟩
  · intro opid hmem
    obtain ⟨operation, hin, rfl⟩ := exists_of_mem_opids hmem
    obtain ⟨place, hget⟩ := List.mem_iff_getElem?.mp hin
    exact (hrooted.path hsound hget).1

end CallTree

namespace Tangled

open Sample

/-- Operation 1 is the root. Its child 2 holds an interval and has a child 3, which names the root
as its child, and also 2 through the clearance side only, and itself. Operation 4 never finishes.
Operation 5 is cleared by 3, which enters the tree after it. -/
def trace : Trace := .ofRows
  [stateRow 1 0 1 .init, stateRow 2 90 1 .finish, stateRow 3 10 2 .init, stateRow 4 60 2 .finish,
    stateRow 5 20 3 .init, stateRow 6 50 3 .finish, stateRow 7 30 4 .init, stateRow 8 70 5 .init,
    stateRow 9 80 5 .finish]
  [attributeRow 1 12 2 "wait_attr_time_start", attributeRow 2 18 2 "wait_attr_time_end"]
  [mapRow 1 2 1 1, mapRow 2 3 2 2, mapRow 3 1 3 3, mapRow 4 2 9 3, mapRow 5 3 3 3, mapRow 6 4 2 9,
    mapRow 7 5 1 3]

theorem rows_eq : trace.maps.rows =
    [mapRow 1 2 1 1, mapRow 2 3 2 2, mapRow 3 1 3 3, mapRow 4 2 9 3, mapRow 5 3 3 3, mapRow 6 4 2 9,
      mapRow 7 5 1 3] := by
  cbv

theorem nodup_ids : (trace.maps.rows.map (·.id)).Nodup := by
  rw [rows_eq]
  decide

theorem resolve_root : trace.toStore.resolve 1 = .ok (.complete
    { opid := 1, fnTag := "request", smTag := none, start := 0, finish := 90 }) := by
  cbv

theorem attributesOf_root : trace.toStore.attributesOf 1 = .ok [] := by cbv

theorem exists_tree : ∃ tree, CallTree.build trace.toStore 1 = .ok tree ∧
    tree.opids = [1, 2, 5, 3] ∧ tree.findings =
      [.incompleteSpan 4 .finish, .cycleSkipped 5 3 3, .cycleSkipped 3 1 3, .cycleSkipped 4 2 3] ∧
    tree.nodes.length = 9 ∧
    tree.childrenOf 1 = [2, 5] ∧ tree.childrenOf 2 = [3] ∧ tree.childrenOf 3 = [5] := by
  apply CallTree.exists_build_of_treeWithin 4 resolve_root attributesOf_root
  cbv

end Tangled

/-- The tree of the tangled trace flows. -/
theorem CallTree.hierarchy_of_tangled :
    ∃ tree top, build Tangled.trace.toStore 1 = .ok tree ∧ tree.Hierarchy 1 top := by
  obtain ⟨tree, htree⟩ := exists_build_of_resolve Tangled.trace.serves Tangled.resolve_root
  obtain ⟨top, htop⟩ := hierarchy_of_build htree
  exact ⟨tree, top, htree, htop⟩

end OpTrace

import Mathlib.Data.List.Nodup
import Mathlib.Data.List.Pairwise
import OpTrace.Proofs.CallTree.Parts
import OpTrace.Proofs.CallTree.Path

/-!
# Sound call trees

The invariant of the growth of a call tree. Each node belongs to one operation, each link lies
inside an operation or belongs to an attachment, the links between `finish` nodes mirror those
between `init` nodes, and no operation is attached below itself.

`attach?` looks for a path between two `init` nodes in the whole graph. In a sound tree such a
path exists exactly if there is one along attachments, since no link leads from a `finish` node or
an interval back to an `init` node. So a refusal means that the parent is below the child, and what
is attached leaves the tree without cycles. The whole graph then has none either.
-/

namespace OpTrace

open Relation

namespace CallTree

/-- `child` is attached under `parent`: a link joins their `init` nodes. -/
def Attaches (tree : CallTree) (parent child : OpId) : Prop :=
  ∃ upper ∈ tree.operations, ∃ lower ∈ tree.operations,
    upper.span.opid = parent ∧ lower.span.opid = child ∧ (upper.init, lower.init) ∈ tree.links

instance (tree : CallTree) (parent child : OpId) : Decidable (tree.Attaches parent child) :=
  inferInstanceAs (Decidable (∃ upper ∈ tree.operations, ∃ lower ∈ tree.operations,
    upper.span.opid = parent ∧ lower.span.opid = child ∧ (upper.init, lower.init) ∈ tree.links))

/-- How far down a node of the kind stands: `init` nodes are above the nodes of intervals, and
these are above `finish` nodes. -/
def kindLevel : NodeKind → Nat
  | .init => 0
  | .interval => 1
  | .finish => 2

def level (tree : CallTree) (id : NodeId) : Nat :=
  ((tree.node? id).map fun node ↦ kindLevel node.kind).getD 0

/-- The invariant of call trees. -/
structure Sound (tree : CallTree) : Prop where
  nodup : tree.opids.Nodup
  numbered : tree.operations.flatMap Operation.nodeIds = List.range tree.nodes.length
  shown : ∀ operation ∈ tree.operations, ∃ notes, tree.Shows operation notes
  inner : ∀ operation ∈ tree.operations, ∀ link ∈ operation.links, link ∈ tree.links
  sorted : ∀ link ∈ tree.links, (∃ operation ∈ tree.operations, link ∈ operation.links) ∨
    ∃ upper ∈ tree.operations, ∃ lower ∈ tree.operations, (upper.init, lower.init) ∈ tree.links ∧
      (link = (upper.init, lower.init) ∨ link = (lower.finish, upper.finish))
  mirrored : ∀ upper ∈ tree.operations, ∀ lower ∈ tree.operations,
    (upper.init, lower.init) ∈ tree.links → (lower.finish, upper.finish) ∈ tree.links
  acyclic : ∀ opid, ¬ TransGen tree.Attaches opid opid

section Nodes

variable {tree : CallTree} {operation other : Operation} {notes : Annotations}

theorem Shows.exists_node_of_mem_intervals (h : tree.Shows operation notes) {id : NodeId}
    (hid : id ∈ operation.intervals) : ∃ node, tree.node? id = some node ∧
      node.id = id ∧ node.kind = .interval := by
  obtain ⟨place, rfl⟩ := List.mem_iff_get.mp hid
  obtain ⟨hlength, hnodes⟩ := List.forall₂_iff_get.mp h.intervals
  exact ⟨_, hnodes place place.isLt (hlength ▸ place.isLt), rfl, rfl⟩

theorem Shows.level_init (h : tree.Shows operation notes) : tree.level operation.init = 0 := by
  simp [level, h.init, kindLevel]

theorem Shows.level_finish (h : tree.Shows operation notes) :
    tree.level operation.finish = 2 := by
  simp [level, h.finish, kindLevel]

theorem Shows.level_interval (h : tree.Shows operation notes) {id : NodeId}
    (hid : id ∈ operation.intervals) : tree.level id = 1 := by
  obtain ⟨node, hnode, -, hkind⟩ := h.exists_node_of_mem_intervals hid
  simp [level, hnode, hkind, kindLevel]

theorem mem_opids_of_mem (h : operation ∈ tree.operations) :
    operation.span.opid ∈ tree.opids :=
  List.mem_map_of_mem (f := fun operation : Operation ↦ operation.span.opid) h

theorem exists_of_mem_opids {opid : OpId} (h : opid ∈ tree.opids) :
    ∃ operation ∈ tree.operations, operation.span.opid = opid :=
  List.mem_map.mp h

theorem mem_of_operation? {opid : OpId} (h : tree.operation? opid = some operation) :
    operation ∈ tree.operations ∧ operation.span.opid = opid :=
  ⟨List.mem_of_find?_eq_some h, by simpa using List.find?_some h⟩

theorem exists_operation? {opid : OpId} (h : opid ∈ tree.opids) :
    ∃ operation, tree.operation? opid = some operation := by
  obtain ⟨operation, hmem, hopid⟩ := exists_of_mem_opids h
  have hsome : (tree.operation? opid).isSome := by
    rw [operation?, List.find?_isSome]
    exact ⟨operation, hmem, by simpa using hopid⟩
  exact Option.isSome_iff_exists.mp hsome

namespace Sound

theorem eq_of_opid_eq (h : tree.Sound) (hmem : operation ∈ tree.operations)
    (hother : other ∈ tree.operations) (heq : operation.span.opid = other.span.opid) :
    operation = other :=
  List.inj_on_of_nodup_map h.nodup hmem hother heq

theorem operation?_of_mem (h : tree.Sound) (hmem : operation ∈ tree.operations) :
    tree.operation? operation.span.opid = some operation := by
  obtain ⟨other, hother⟩ := exists_operation? (mem_opids_of_mem hmem)
  obtain ⟨hin, heq⟩ := mem_of_operation? hother
  rw [hother, h.eq_of_opid_eq hin hmem heq]

/-- No node belongs to two operations. -/
theorem eq_of_mem_nodeIds (h : tree.Sound) (hmem : operation ∈ tree.operations)
    (hother : other ∈ tree.operations) {id : NodeId} (hid : id ∈ operation.nodeIds)
    (hid' : id ∈ other.nodeIds) : operation = other := by
  have hnodup : (tree.operations.flatMap Operation.nodeIds).Nodup := by
    rw [h.numbered]
    exact List.nodup_range
  have hdisjoint := (List.nodup_flatMap.mp hnodup).2
  have hsymm : Std.Symm (Function.onFun List.Disjoint Operation.nodeIds) :=
    ⟨fun _ _ hdisjoint _ hright hleft ↦ hdisjoint hleft hright⟩
  by_contra hne
  exact hdisjoint.forall hmem hother hne hid hid'

theorem eq_of_init_eq (h : tree.Sound) (hmem : operation ∈ tree.operations)
    (hother : other ∈ tree.operations) (heq : operation.init = other.init) :
    operation = other := by
  have hid : operation.init ∈ other.nodeIds := by
    rw [heq]
    exact List.mem_cons_self
  exact h.eq_of_mem_nodeIds hmem hother List.mem_cons_self hid

theorem eq_of_finish_eq (h : tree.Sound) (hmem : operation ∈ tree.operations)
    (hother : other ∈ tree.operations) (heq : operation.finish = other.finish) :
    operation = other := by
  have hfinish (operation : Operation) : operation.finish ∈ operation.nodeIds :=
    List.mem_cons_of_mem _ List.mem_cons_self
  have hid : operation.finish ∈ other.nodeIds := by
    rw [heq]
    exact hfinish other
  exact h.eq_of_mem_nodeIds hmem hother (hfinish operation) hid

theorem level_init (h : tree.Sound) (hmem : operation ∈ tree.operations) :
    tree.level operation.init = 0 :=
  (h.shown operation hmem).elim fun _ hshows ↦ hshows.level_init

theorem level_finish (h : tree.Sound) (hmem : operation ∈ tree.operations) :
    tree.level operation.finish = 2 :=
  (h.shown operation hmem).elim fun _ hshows ↦ hshows.level_finish

theorem level_interval (h : tree.Sound) (hmem : operation ∈ tree.operations) {id : NodeId}
    (hid : id ∈ operation.intervals) : tree.level id = 1 :=
  (h.shown operation hmem).elim fun _ hshows ↦ hshows.level_interval hid

/-- The nodes of the operations are all the nodes. -/
theorem lt_length_iff (h : tree.Sound) {id : NodeId} :
    id < tree.nodes.length ↔ ∃ operation ∈ tree.operations, id ∈ operation.nodeIds := by
  rw [← List.mem_range, ← h.numbered, List.mem_flatMap]

/-- The names of the nodes of one operation go up. -/
theorem pairwise_nodeIds (h : tree.Sound) (hmem : operation ∈ tree.operations) :
    operation.nodeIds.Pairwise (· < ·) := by
  have hall : (tree.operations.flatMap Operation.nodeIds).Pairwise (· < ·) := by
    rw [h.numbered]
    exact List.pairwise_lt_range
  exact (List.pairwise_flatMap.mp hall).1 operation hmem

end Sound

end Nodes

/-! ## Links -/

theorem ends_of_mem_links {operation : Operation} {node target : NodeId}
    (h : (node, target) ∈ operation.links) :
    node ∈ operation.init :: operation.intervals ∧
      (target ∈ operation.intervals ∨ target = operation.finish) := by
  rcases List.mem_cons.mp h with heq | hchain
  · obtain ⟨rfl, rfl⟩ := Prod.mk.inj heq
    exact ⟨List.mem_cons_self, .inr rfl⟩
  · obtain ⟨edge, hedge, heq⟩ := List.mem_map.mp hchain
    obtain ⟨rfl, rfl⟩ := Prod.mk.inj heq
    exact ends_of_mem_chain hedge

namespace Sound

variable {tree : CallTree} {upper lower : Operation} {node target : NodeId}

theorem attaches_iff (h : tree.Sound) (hupper : upper ∈ tree.operations)
    (hlower : lower ∈ tree.operations) :
    tree.Attaches upper.span.opid lower.span.opid ↔ (upper.init, lower.init) ∈ tree.links := by
  constructor
  · rintro ⟨above, habove, below, hbelow, heq, heq', hlink⟩
    rwa [← h.eq_of_opid_eq habove hupper heq, ← h.eq_of_opid_eq hbelow hlower heq']
  · exact fun hlink ↦ ⟨upper, hupper, lower, hlower, rfl, rfl, hlink⟩

theorem exists_of_linked (h : tree.Sound) (hlink : Linked tree.links node target) :
    (∃ operation ∈ tree.operations, node ∈ operation.nodeIds) ∧
      ∃ operation ∈ tree.operations, target ∈ operation.nodeIds := by
  rcases h.sorted _ hlink with ⟨operation, hmem, hinner⟩ | ⟨upper, hupper, lower, hlower, -, heq⟩
  · obtain ⟨hnode, htarget⟩ := ends_of_mem_links hinner
    refine ⟨⟨operation, hmem, ?_⟩, operation, hmem, ?_⟩
    · simp only [Operation.nodeIds, List.mem_cons] at hnode ⊢
      tauto
    · simp only [Operation.nodeIds, List.mem_cons]
      tauto
  · rcases heq with heq | heq <;> obtain ⟨rfl, rfl⟩ := Prod.mk.inj heq
    · exact ⟨⟨upper, hupper, by simp [Operation.nodeIds]⟩,
        lower, hlower, by simp [Operation.nodeIds]⟩
    · exact ⟨⟨lower, hlower, by simp [Operation.nodeIds]⟩,
        upper, hupper, by simp [Operation.nodeIds]⟩

/-- A link into an `init` node belongs to an attachment. -/
theorem attaches_of_level_eq_zero (h : tree.Sound) (hlink : Linked tree.links node target)
    (htarget : tree.level target = 0) :
    ∃ upper ∈ tree.operations, ∃ lower ∈ tree.operations, node = upper.init ∧
      target = lower.init ∧ tree.Attaches upper.span.opid lower.span.opid := by
  rcases h.sorted _ hlink with ⟨operation, hmem, hinner⟩ |
    ⟨upper, hupper, lower, hlower, hinit, heq⟩
  · rcases (ends_of_mem_links hinner).2 with hin | hlast
    · exact absurd (h.level_interval hmem hin) (by simp [htarget])
    · have hfinish := h.level_finish hmem
      rw [← hlast, htarget] at hfinish
      exact absurd hfinish (by decide)
  · rcases heq with heq | heq <;> obtain ⟨rfl, rfl⟩ := Prod.mk.inj heq
    · exact ⟨upper, hupper, lower, hlower, rfl, rfl, (h.attaches_iff hupper hlower).mpr hinit⟩
    · exact absurd (h.level_finish hupper) (by simp [htarget])

/-- A link out of a `finish` node mirrors an attachment. -/
theorem attaches_of_level_eq_two (h : tree.Sound) (hlink : Linked tree.links node target)
    (hnode : tree.level node = 2) :
    ∃ upper ∈ tree.operations, ∃ lower ∈ tree.operations, node = lower.finish ∧
      target = upper.finish ∧ tree.Attaches upper.span.opid lower.span.opid := by
  rcases h.sorted _ hlink with ⟨operation, hmem, hinner⟩ |
    ⟨upper, hupper, lower, hlower, hinit, heq⟩
  · rcases List.mem_cons.mp (ends_of_mem_links hinner).1 with hfirst | hin
    · have hlevel := h.level_init hmem
      rw [← hfirst, hnode] at hlevel
      exact absurd hlevel (by decide)
    · exact absurd (h.level_interval hmem hin) (by simp [hnode])
  · rcases heq with heq | heq <;> obtain ⟨rfl, rfl⟩ := Prod.mk.inj heq
    · exact absurd (h.level_init hupper) (by simp [hnode])
    · exact ⟨upper, hupper, lower, hlower, rfl, rfl, (h.attaches_iff hupper hlower).mpr hinit⟩

/-- Between the intervals of an operation links go up. -/
theorem lt_of_level_eq_one (h : tree.Sound) (hlink : Linked tree.links node target)
    (hnode : tree.level node = 1) (htarget : tree.level target = 1) : node < target := by
  rcases h.sorted _ hlink with ⟨operation, hmem, hinner⟩ | ⟨upper, hupper, lower, hlower, -, heq⟩
  · rcases List.mem_cons.mp hinner with heq | hchain
    · obtain ⟨rfl, rfl⟩ := Prod.mk.inj heq
      exact absurd (h.level_init hmem) (by simp [hnode])
    · obtain ⟨edge, hedge, heq⟩ := List.mem_map.mp hchain
      obtain ⟨rfl, rfl⟩ := Prod.mk.inj heq
      have hup : (operation.init :: operation.intervals).Pairwise (· < ·) :=
        (h.pairwise_nodeIds hmem).sublist ((List.sublist_cons_self _ _).cons_cons _)
      refine source_lt_target_of_mem_chain hup hedge fun hlast ↦ ?_
      exact absurd (h.level_finish hmem) (by simp [← hlast, htarget])
  · rcases heq with heq | heq <;> obtain ⟨rfl, rfl⟩ := Prod.mk.inj heq
    · exact absurd (h.level_init hupper) (by simp [hnode])
    · exact absurd (h.level_finish hlower) (by simp [hnode])

/-- No link leads upwards. -/
theorem level_le_of_linked (h : tree.Sound) (hlink : Linked tree.links node target) :
    tree.level node ≤ tree.level target := by
  rcases h.sorted _ hlink with ⟨operation, hmem, hinner⟩ | ⟨upper, hupper, lower, hlower, -, heq⟩
  · obtain ⟨hnode, htarget⟩ := ends_of_mem_links hinner
    calc
      tree.level node ≤ 1 := by
        rcases List.mem_cons.mp hnode with rfl | hin
        · rw [h.level_init hmem]
          exact Nat.zero_le 1
        · exact Nat.le_of_eq (h.level_interval hmem hin)
      _ ≤ tree.level target := by
        rcases htarget with hin | rfl
        · exact Nat.le_of_eq (h.level_interval hmem hin).symm
        · rw [h.level_finish hmem]
          exact Nat.le_succ 1
  · rcases heq with heq | heq <;> obtain ⟨rfl, rfl⟩ := Prod.mk.inj heq
    · exact Nat.le_of_eq ((h.level_init hupper).trans (h.level_init hlower).symm)
    · exact Nat.le_of_eq ((h.level_finish hlower).trans (h.level_finish hupper).symm)

/-! ## Paths -/

/-- What attachments extend, one after the other, holds along every path of them. -/
theorem path_induction (h : tree.Sound) {motive : Operation → Operation → Prop}
    (hrefl : ∀ operation ∈ tree.operations, motive operation operation)
    (hstep : ∀ upper, ∀ middle ∈ tree.operations, ∀ lower ∈ tree.operations,
      motive upper middle → (middle.init, lower.init) ∈ tree.links → motive upper lower)
    (hupper : upper ∈ tree.operations) (hlower : lower ∈ tree.operations)
    (hpath : ReflTransGen tree.Attaches upper.span.opid lower.span.opid) : motive upper lower := by
  suffices hall : ∀ child, ReflTransGen tree.Attaches upper.span.opid child →
      ∀ lower ∈ tree.operations, lower.span.opid = child → motive upper lower from
    hall _ hpath lower hlower rfl
  intro child hpath
  induction hpath with
  | refl =>
    intro lower hlower heq
    rw [h.eq_of_opid_eq hlower hupper heq]
    exact hrefl upper hupper
  | tail _ hattaches ih =>
    intro lower hlower heq
    obtain ⟨middle, hmiddle, below, hbelow, hopid, hopid', hlink⟩ := hattaches
    rw [h.eq_of_opid_eq hbelow hlower (hopid'.trans heq.symm)] at hlink
    exact hstep upper middle hmiddle lower hlower (ih middle hmiddle hopid) hlink

/-- A path along attachments is a path between `init` nodes. -/
theorem path_of_attaches (h : tree.Sound) (hupper : upper ∈ tree.operations)
    (hlower : lower ∈ tree.operations)
    (hpath : ReflTransGen tree.Attaches upper.span.opid lower.span.opid) :
    ReflTransGen (Linked tree.links) upper.init lower.init := by
  apply h.path_induction (fun _ _ ↦ .refl) ?_ hupper hlower hpath
  intro upper middle _ lower _ hbefore hlink
  exact hbefore.tail hlink

/-- A path along attachments goes back between `finish` nodes. -/
theorem path_back_of_attaches (h : tree.Sound) (hupper : upper ∈ tree.operations)
    (hlower : lower ∈ tree.operations)
    (hpath : ReflTransGen tree.Attaches upper.span.opid lower.span.opid) :
    ReflTransGen (Linked tree.links) lower.finish upper.finish := by
  apply h.path_induction (motive := fun upper lower ↦
    ReflTransGen (Linked tree.links) lower.finish upper.finish) (fun _ _ ↦ .refl) ?_ hupper hlower
    hpath
  intro upper middle hmiddle lower hlower hbefore hlink
  have hmirror : Linked tree.links lower.finish middle.finish :=
    h.mirrored middle hmiddle lower hlower hlink
  exact .head hmirror hbefore

/-- A path between `init` nodes goes along attachments. -/
theorem attaches_of_path (h : tree.Sound) (hupper : upper ∈ tree.operations)
    (hpath : TransGen (Linked tree.links) upper.init target) (htarget : tree.level target = 0) :
    ∃ lower ∈ tree.operations, target = lower.init ∧
      TransGen tree.Attaches upper.span.opid lower.span.opid := by
  induction hpath with
  | single hlink =>
    obtain ⟨above, habove, lower, hlower, heq, rfl, hstep⟩ :=
      h.attaches_of_level_eq_zero hlink htarget
    obtain rfl := h.eq_of_init_eq hupper habove heq
    exact ⟨lower, hlower, rfl, .single hstep⟩
  | tail _ hlink ih =>
    have hle := h.level_le_of_linked hlink
    obtain ⟨middle, hmiddle, rfl, hbefore⟩ := ih (by omega)
    obtain ⟨above, habove, lower, hlower, heq, rfl, hstep⟩ :=
      h.attaches_of_level_eq_zero hlink htarget
    obtain rfl := h.eq_of_init_eq hmiddle habove heq
    exact ⟨lower, hlower, rfl, hbefore.tail hstep⟩

/-- The search for a path between two `init` nodes finds out whether one operation is below the
other. -/
theorem reaches_init_iff (h : tree.Sound) (hupper : upper ∈ tree.operations)
    (hlower : lower ∈ tree.operations) :
    reaches tree.links upper.init lower.init = true ↔
      ReflTransGen tree.Attaches upper.span.opid lower.span.opid := by
  rw [reaches_iff]
  constructor
  · intro hpath
    rcases reflTransGen_iff_eq_or_transGen.mp hpath with heq | hpath
    · rw [h.eq_of_init_eq hupper hlower heq.symm]
    · obtain ⟨below, hbelow, heq, hattaches⟩ :=
        h.attaches_of_path hupper hpath (h.level_init hlower)
      rw [h.eq_of_init_eq hlower hbelow heq]
      exact hattaches.to_reflTransGen
  · exact h.path_of_attaches hupper hlower

/-- A path from a `finish` node goes back along attachments. -/
theorem attaches_of_path_back (h : tree.Sound) (hlower : lower ∈ tree.operations)
    (hpath : TransGen (Linked tree.links) lower.finish target) :
    ∃ upper ∈ tree.operations, target = upper.finish ∧
      TransGen tree.Attaches upper.span.opid lower.span.opid := by
  induction hpath with
  | single hlink =>
    obtain ⟨upper, hupper, below, hbelow, heq, rfl, hstep⟩ :=
      h.attaches_of_level_eq_two hlink (h.level_finish hlower)
    obtain rfl := h.eq_of_finish_eq hlower hbelow heq
    exact ⟨upper, hupper, rfl, .single hstep⟩
  | tail _ hlink ih =>
    obtain ⟨middle, hmiddle, rfl, hbefore⟩ := ih
    obtain ⟨upper, hupper, below, hbelow, heq, rfl, hstep⟩ :=
      h.attaches_of_level_eq_two hlink (h.level_finish hmiddle)
    obtain rfl := h.eq_of_finish_eq hmiddle hbelow heq
    exact ⟨upper, hupper, rfl, .head hstep hbefore⟩

/-- Among the intervals of operations paths go up. -/
theorem lt_of_path (h : tree.Sound) (hpath : TransGen (Linked tree.links) node target)
    (hnode : tree.level node = 1) (htarget : tree.level target = 1) : node < target := by
  induction hpath with
  | single hlink => exact h.lt_of_level_eq_one hlink hnode htarget
  | @tail middle target hbefore hlink ih =>
    have hle := h.level_le_of_linked hlink
    have hle' := level_le_of_transGen (fun _ _ hlink ↦ h.level_le_of_linked hlink) hbefore
    have hmiddle : tree.level middle = 1 := by omega
    exact Nat.lt_trans (ih hmiddle) (h.lt_of_level_eq_one hlink hmiddle htarget)

/-- The graph of a sound tree has no cycle. A cycle through an `init` or a `finish` node would be
one of attachments, and one through an interval would go up for ever. -/
theorem not_cycle (h : tree.Sound) (id : NodeId) : ¬ TransGen (Linked tree.links) id id := by
  intro hcycle
  obtain ⟨next, hlink, -⟩ := TransGen.head'_iff.mp hcycle
  obtain ⟨operation, hmem, hid⟩ := (h.exists_of_linked hlink).1
  simp only [Operation.nodeIds, List.mem_cons] at hid
  rcases hid with rfl | rfl | hin
  · obtain ⟨lower, hlower, heq, hpath⟩ := h.attaches_of_path hmem hcycle (h.level_init hmem)
    rw [← h.eq_of_init_eq hmem hlower heq] at hpath
    exact h.acyclic _ hpath
  · obtain ⟨upper, hupper, heq, hpath⟩ := h.attaches_of_path_back hmem hcycle
    rw [← h.eq_of_finish_eq hmem hupper heq] at hpath
    exact h.acyclic _ hpath
  · have hlevel := h.level_interval hmem hin
    exact Nat.lt_irrefl id (h.lt_of_path hcycle hlevel hlevel)

end Sound

end CallTree

end OpTrace

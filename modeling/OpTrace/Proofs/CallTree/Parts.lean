import Mathlib.Data.List.Forall2
import Mathlib.Logic.Relation
import OpTrace.CallTree.Basic

/-!
# Parts of call trees

What one operation contributes to a tree, and what each step of the growth adds to it: `report`
adds findings, `addOperation` adds the nodes and the inner links of one operation, and `attach?`
adds one link between two `init` nodes and its mirror image between the two `finish` nodes.
Nothing that is in a tree is ever taken away.
-/

namespace OpTrace

open CallTree

namespace Operation

/-- The names of the nodes of an operation, in the order of creation. -/
def nodeIds (operation : Operation) : List NodeId :=
  operation.init :: operation.finish :: operation.intervals

/-- The links inside an operation: from `init` to `finish`, and the chain of its intervals. -/
def links (operation : Operation) : List Link :=
  (operation.init, operation.finish) ::
    (chain operation.init operation.intervals operation.finish).map Edge.link

/-- The operation whose nodes are named from `place` on. -/
def placed (place : NodeId) (span : Span) (parent : Option OpId) (notes : Annotations) :
    Operation :=
  { span, parent, init := place, finish := place + 1,
    intervals := (intervalNodes span.opid (place + 2) notes.intervals).map (·.id) }

end Operation

namespace CallTree

/-- The nodes of the tree show the span of an operation and its annotations: the `init` node
carries the plain data, and there is one node for each interval, in order. -/
structure Shows (tree : CallTree) (operation : Operation) (notes : Annotations) : Prop where
  init : tree.node? operation.init = some
    { id := operation.init, opid := operation.span.opid, kind := .init,
      label := operation.span.fnTag ++ " init", start := operation.span.start,
      finish := operation.span.finish, metadata := notes.metadata }
  finish : tree.node? operation.finish = some
    { id := operation.finish, opid := operation.span.opid, kind := .finish,
      label := operation.span.fnTag ++ " finish", start := operation.span.start,
      finish := operation.span.finish }
  intervals : List.Forall₂ (fun id (interval : Interval) ↦ tree.node? id = some
      { id, opid := operation.span.opid, kind := .interval, label := interval.label,
        start := interval.start, finish := interval.finish })
    operation.intervals notes.intervals

theorem Shows.mono {tree grown : CallTree} {operation : Operation} {notes : Annotations}
    (hnodes : tree.nodes <+: grown.nodes) (h : tree.Shows operation notes) :
    grown.Shows operation notes := by
  obtain ⟨more, hmore⟩ := hnodes
  have hkeep {id : NodeId} {node : Node} (hnode : tree.node? id = some node) :
      grown.node? id = some node := by
    have hlt : id < tree.nodes.length := (List.getElem?_eq_some_iff.mp hnode).1
    rw [node?, ← hmore, List.getElem?_append_left hlt]
    exact hnode
  exact ⟨hkeep h.init, hkeep h.finish, h.intervals.imp fun _ _ ↦ hkeep⟩

theorem chain_cons (first next : NodeId) (between : List NodeId) (last : NodeId) :
    chain first (next :: between) last = { source := first, target := next } ::
      if between = [] then [{ source := next, target := last }] else chain next between last := by
  cases between <;> simp [chain]

/-- An edge of a chain is its first one, or one of the chain that is left; this is a single edge if
no node stands between any more. -/
theorem mem_chain_cons {first next last : NodeId} {between : List NodeId} {edge : Edge}
    (h : edge ∈ chain first (next :: between) last) :
    edge = { source := first, target := next } ∨
      between = [] ∧ edge = { source := next, target := last } ∨
        edge ∈ chain next between last := by
  rw [chain_cons, List.mem_cons] at h
  apply h.imp_right
  intro hrest
  by_cases hempty : between = []
  · rw [if_pos hempty, List.mem_singleton] at hrest
    exact .inl ⟨hempty, hrest⟩
  · rw [if_neg hempty] at hrest
    exact .inr hrest

/-- An edge of a chain leaves the first node or one between, and enters one between or the
last. -/
theorem ends_of_mem_chain {first last : NodeId} {between : List NodeId} {edge : Edge}
    (h : edge ∈ chain first between last) :
    edge.source ∈ first :: between ∧ (edge.target ∈ between ∨ edge.target = last) := by
  induction between generalizing first with
  | nil => simp [chain] at h
  | cons next between ih =>
    rcases mem_chain_cons h with rfl | ⟨-, rfl⟩ | hrest
    · exact ⟨List.mem_cons_self, .inl List.mem_cons_self⟩
    · exact ⟨List.mem_cons_of_mem _ List.mem_cons_self, .inr rfl⟩
    · obtain ⟨hsource, htarget⟩ := ih hrest
      exact ⟨List.mem_cons_of_mem _ hsource,
        htarget.imp (fun hin ↦ List.mem_cons_of_mem _ hin) id⟩

/-- Where names go up along a chain, so does each edge that does not enter the last node. -/
theorem source_lt_target_of_mem_chain {first last : NodeId} {between : List NodeId} {edge : Edge}
    (hup : (first :: between).Pairwise (· < ·)) (h : edge ∈ chain first between last)
    (hlast : edge.target ≠ last) : edge.source < edge.target := by
  induction between generalizing first with
  | nil => simp [chain] at h
  | cons next between ih =>
    obtain ⟨hfirst, hrest⟩ := List.pairwise_cons.mp hup
    rcases mem_chain_cons h with rfl | ⟨-, rfl⟩ | hin
    · exact hfirst next List.mem_cons_self
    · exact absurd rfl hlast
    · exact ih hrest hin

/-- Each node between lies on a path from the first node of a chain to its last. -/
theorem path_of_mem_chain {r : NodeId → NodeId → Prop} {first last : NodeId}
    {between : List NodeId} (hr : ∀ edge ∈ chain first between last, r edge.source edge.target)
    {id : NodeId} (hid : id ∈ between) :
    Relation.TransGen r first id ∧ Relation.TransGen r id last := by
  induction between generalizing first id with
  | nil => simp at hid
  | cons next between ih =>
    rw [chain_cons] at hr
    have hfirst : r first next := hr _ List.mem_cons_self
    have hrest := fun edge hedge ↦ hr edge (List.mem_cons_of_mem _ hedge)
    cases between with
    | nil =>
      obtain rfl := List.mem_singleton.mp hid
      exact ⟨.single hfirst, .single (hrest { source := id, target := last } (by simp))⟩
    | cons second others =>
      rw [if_neg (List.cons_ne_nil _ _)] at hrest
      rcases List.mem_cons.mp hid with rfl | hlater
      · obtain ⟨hto, hfrom⟩ := ih hrest List.mem_cons_self
        exact ⟨.single hfirst, hto.trans hfrom⟩
      · obtain ⟨hto, hfrom⟩ := ih hrest hlater
        exact ⟨.head hfirst hto, hfrom⟩

section Report

variable (tree : CallTree) (findings : Findings)

@[simp] theorem root_report : (tree.report findings).root = tree.root := rfl

@[simp] theorem nodes_report : (tree.report findings).nodes = tree.nodes := rfl

@[simp] theorem operations_report : (tree.report findings).operations = tree.operations := rfl

@[simp] theorem links_report : (tree.report findings).links = tree.links := rfl

@[simp] theorem findings_report :
    (tree.report findings).findings = tree.findings ++ findings := rfl

variable {tree} in
theorem Shows.report {operation : Operation} {notes : Annotations}
    (h : tree.Shows operation notes) : (tree.report findings).Shows operation notes :=
  ⟨h.init, h.finish, h.intervals⟩

end Report

section AddOperation

variable (tree : CallTree) (span : Span) (parent : Option OpId) (notes : Annotations)

@[simp] theorem root_addOperation : (tree.addOperation span parent notes).root = tree.root := rfl

@[simp] theorem operations_addOperation :
    (tree.addOperation span parent notes).operations =
      tree.operations ++ [.placed tree.nodes.length span parent notes] := rfl

@[simp] theorem findings_addOperation :
    (tree.addOperation span parent notes).findings = tree.findings ++ notes.findings := rfl

theorem nodes_prefix_addOperation :
    tree.nodes <+: (tree.addOperation span parent notes).nodes := by
  simp [addOperation, List.append_assoc]

@[simp] theorem links_addOperation :
    (tree.addOperation span parent notes).links =
      tree.links ++ (Operation.placed tree.nodes.length span parent notes).links := by
  simp [links, addOperation, Operation.links, Operation.placed, Edge.link]

end AddOperation

theorem intervalNodes_cons (opid : OpId) (id : NodeId) (interval : Interval)
    (intervals : List Interval) :
    intervalNodes opid id (interval :: intervals) =
      { id, opid, kind := .interval, label := interval.label, start := interval.start,
        finish := interval.finish } :: intervalNodes opid (id + 1) intervals := by
  simp only [intervalNodes, List.mapIdx_cons, Nat.add_zero, List.cons.injEq, true_and]
  congr 1
  funext i interval
  rw [Nat.add_right_comm, Nat.add_assoc]

theorem map_id_intervalNodes (opid : OpId) (id : NodeId) (intervals : List Interval) :
    (intervalNodes opid id intervals).map (·.id) =
      (List.range intervals.length).map (id + ·) := by
  induction intervals generalizing id with
  | nil => rfl
  | cons interval intervals ih =>
    rw [intervalNodes_cons, List.map_cons, ih, List.length_cons, List.range_succ_eq_map,
      List.map_cons, List.map_map]
    congr 1
    exact List.map_congr_left fun i _ ↦ Nat.add_right_comm id 1 i

/-- A node stands at the place that it is named by. -/
theorem forall₂_intervalNodes (opid : OpId) (intervals : List Interval) (before : List Node) :
    List.Forall₂ (fun id (interval : Interval) ↦
        (before ++ intervalNodes opid before.length intervals)[id]? = some
          { id, opid, kind := .interval, label := interval.label, start := interval.start,
            finish := interval.finish })
      ((intervalNodes opid before.length intervals).map (·.id)) intervals := by
  induction intervals generalizing before with
  | nil => exact .nil
  | cons interval intervals ih =>
    rw [intervalNodes_cons]
    refine .cons (by simp) ?_
    let node : Node :=
      { id := before.length, opid, kind := .interval, label := interval.label,
        start := interval.start, finish := interval.finish }
    have hrest := ih (before ++ [node])
    simpa only [List.length_append, List.length_singleton, List.append_assoc,
      List.singleton_append] using hrest

/-- The nodes of a new operation show its span and its annotations. -/
theorem shows_addOperation (tree : CallTree) (span : Span) (parent : Option OpId)
    (notes : Annotations) :
    (tree.addOperation span parent notes).Shows
      (.placed tree.nodes.length span parent notes) notes := by
  refine ⟨?_, ?_, ?_⟩
  · simp [node?, addOperation, Operation.placed]
  · simp [node?, addOperation, Operation.placed]
  · have h := forall₂_intervalNodes span.opid notes.intervals (tree.nodes ++
      [{ id := tree.nodes.length, opid := span.opid, kind := .init,
         label := span.fnTag ++ " init", start := span.start, finish := span.finish,
         metadata := notes.metadata },
       { id := tree.nodes.length + 1, opid := span.opid, kind := .finish,
         label := span.fnTag ++ " finish", start := span.start, finish := span.finish }])
    simpa [node?, addOperation, Operation.placed] using h

/-- The names of the nodes of a new operation are those that come next. -/
theorem range_length_addOperation (tree : CallTree) (span : Span) (parent : Option OpId)
    (notes : Annotations) :
    List.range (tree.addOperation span parent notes).nodes.length =
      List.range tree.nodes.length ++
        (Operation.placed tree.nodes.length span parent notes).nodeIds := by
  have hlength : (tree.addOperation span parent notes).nodes.length =
      tree.nodes.length + (notes.intervals.length + 1 + 1) := by
    simp [addOperation, intervalNodes]
  rw [hlength, List.range_add, Operation.nodeIds, Operation.placed, map_id_intervalNodes,
    List.range_succ_eq_map, List.range_succ_eq_map]
  simp only [List.map_cons, List.map_map, Nat.add_zero]
  congr 3
  exact List.map_congr_left fun i _ ↦ by simp only [Function.comp_apply]; omega

/-- Setting an edge keeps the links that are there, in their order, and adds its own at the end if
that is new. -/
theorem map_link_setEdge (edge : Edge) (edges : List Edge) :
    (setEdge edge edges).map Edge.link =
      if edge.link ∈ edges.map Edge.link then edges.map Edge.link
      else edges.map Edge.link ++ [edge.link] := by
  unfold setEdge
  split
  · rw [List.map_map]
    refine List.map_congr_left fun other _ ↦ ?_
    by_cases h : other.link = edge.link <;> simp [h]
  · simp

theorem mem_map_link_setEdge {edge : Edge} {edges : List Edge} {link : Link} :
    link ∈ (setEdge edge edges).map Edge.link ↔
      link ∈ edges.map Edge.link ∨ link = edge.link := by
  rw [map_link_setEdge]
  split
  · next hold => exact ⟨.inl, fun h ↦ h.elim id fun heq ↦ heq ▸ hold⟩
  · simp

/-- The tree that an attachment of `lower` under `upper` gives. -/
structure Attachment (tree : CallTree) (upper lower : Operation) (attached : CallTree) : Prop where
  root : attached.root = tree.root
  nodes : attached.nodes = tree.nodes
  edges : attached.edges = setEdge { source := lower.finish, target := upper.finish }
    (setEdge { source := upper.init, target := lower.init } tree.edges)
  operations : attached.operations = tree.operations
  findings : attached.findings = tree.findings
  mem_links {link : Link} : link ∈ attached.links ↔ link ∈ tree.links ∨
    link = (upper.init, lower.init) ∨ link = (lower.finish, upper.finish)

theorem Attachment.opids_eq {tree attached : CallTree} {upper lower : Operation}
    (h : tree.Attachment upper lower attached) : attached.opids = tree.opids := by
  simp only [opids, h.operations]

/-- What it takes to attach a child, and what that gives. -/
theorem attachment_of_attach? {tree attached : CallTree} {parent child : OpId}
    (h : tree.attach? parent child = some attached) :
    ∃ upper lower, tree.operation? parent = some upper ∧ tree.operation? child = some lower ∧
      reaches tree.links lower.init upper.init = false ∧
      tree.Attachment upper lower attached := by
  unfold attach? at h
  split at h
  · next upper lower hupper hlower =>
    split at h
    · cases h
    · next hback =>
      cases h
      refine ⟨upper, lower, hupper, hlower, by simpa using hback, rfl, rfl, rfl, rfl, rfl, ?_⟩
      intro link
      simp only [links, mem_map_link_setEdge, Edge.link]
      exact or_assoc
  · cases h

theorem reaches_of_attach?_eq_none {tree : CallTree} {parent child : OpId}
    {upper lower : Operation} (hupper : tree.operation? parent = some upper)
    (hlower : tree.operation? child = some lower) (h : tree.attach? parent child = none) :
    reaches tree.links lower.init upper.init = true := by
  simpa [attach?, hupper, hlower] using h

end CallTree

end OpTrace

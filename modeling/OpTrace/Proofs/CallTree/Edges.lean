import OpTrace.Proofs.CallTree.Flow

/-!
# The parts that edges play

The nodes of a tree are named by their places, and there are two for each operation besides those
of intervals. No two edges join the same nodes, and each edge plays exactly one of four parts. It
goes through an operation and carries the duration, it belongs to the chain over the intervals of
an operation, or it is one of the two edges of an attachment: down between `init` nodes, or back up
between `finish` nodes.

`setEdge` overwrites an edge that joins the same nodes. It never hits an edge with a duration or an
edge of a chain, since an attachment joins two nodes of the same level and no other edge does so
but between two intervals.
-/

namespace OpTrace

open Relation

def Operation.through (operation : Operation) : Edge :=
  { source := operation.init, target := operation.finish,
    duration := some operation.span.duration }

/-- The edges from `init` over the intervals, one after the other, to `finish`. -/
def Operation.chained (operation : Operation) : List Edge :=
  CallTree.chain operation.init operation.intervals operation.finish

namespace CallTree

/-- The parts that an edge can play. -/
inductive EdgeRole where
  | through
  | chain
  | down
  | up
  deriving DecidableEq, Repr

/-- The edge plays the part between nodes of operations of the tree. -/
def Plays (tree : CallTree) (edge : Edge) : EdgeRole → Prop
  | .through => ∃ operation ∈ tree.operations, edge = operation.through
  | .chain => ∃ operation ∈ tree.operations, edge ∈ operation.chained
  | .down => ∃ upper ∈ tree.operations, ∃ lower ∈ tree.operations, upper ≠ lower ∧
      edge = { source := upper.init, target := lower.init }
  | .up => ∃ upper ∈ tree.operations, ∃ lower ∈ tree.operations, upper ≠ lower ∧
      edge = { source := lower.finish, target := upper.finish }

/-- The part that the levels of its two ends leave to an edge. -/
def EdgeRole.ofLevels : Nat → Nat → EdgeRole
  | 0, 0 => .down
  | 0, 2 => .through
  | 2, 2 => .up
  | _, _ => .chain

variable {tree attached : CallTree} {operation upper lower : Operation} {edge other : Edge}

/-- An edge of a chain leaves or enters one of the nodes between. -/
theorem source_or_target_of_mem_chain {first last : NodeId} {between : List NodeId}
    (h : edge ∈ chain first between last) : edge.source ∈ between ∨ edge.target ∈ between := by
  cases between with
  | nil => simp [chain] at h
  | cons next between =>
    rcases mem_chain_cons h with rfl | ⟨-, rfl⟩ | hrest
    · exact .inr List.mem_cons_self
    · exact .inl List.mem_cons_self
    · exact .inl (ends_of_mem_chain hrest).1

theorem duration_of_mem_chain {first last : NodeId} {between : List NodeId}
    (h : edge ∈ chain first between last) : edge.duration = none := by
  induction between generalizing first with
  | nil => simp [chain] at h
  | cons next between ih =>
    rcases mem_chain_cons h with rfl | ⟨-, rfl⟩ | hrest
    · rfl
    · rfl
    · exact ih hrest

theorem chain_eq_nil {first last : NodeId} {between : List NodeId} :
    chain first between last = [] ↔ between = [] := by
  cases between with
  | nil => simp [chain]
  | cons next between => simp [chain_cons]

theorem map_source_chain (first last : NodeId) {between : List NodeId} (h : between ≠ []) :
    (chain first between last).map (·.source) = first :: between := by
  induction between generalizing first with
  | nil => exact absurd rfl h
  | cons next between ih =>
    by_cases hempty : between = []
    · simp [chain_cons, hempty]
    · rw [chain_cons, if_neg hempty, List.map_cons, ih next hempty]

theorem nodup_links_chain {first last : NodeId} {between : List NodeId}
    (h : (first :: between).Nodup) : ((chain first between last).map Edge.link).Nodup := by
  by_cases hempty : between = []
  · simp [hempty, chain]
  · apply List.Nodup.of_map Prod.fst
    rw [List.map_map]
    have hsources := map_source_chain first last hempty
    exact (hsources ▸ h : ((chain first between last).map fun edge ↦ edge.source).Nodup)

/-- If the nodes of an operation are distinct, so are its links. -/
theorem nodup_links_of_nodup_nodeIds (h : operation.nodeIds.Nodup) : operation.links.Nodup := by
  have hinit := (List.nodup_cons.mp h).1
  have hrest := (List.nodup_cons.mp h).2
  have hfinish := (List.nodup_cons.mp hrest).1
  apply List.nodup_cons.mpr
  constructor
  · intro hmem
    obtain ⟨edge, hedge, heq⟩ := List.mem_map.mp hmem
    obtain ⟨hsource, htarget⟩ := Prod.mk.inj heq
    rcases source_or_target_of_mem_chain hedge with hin | hin
    · exact hinit (List.mem_cons_of_mem _ (hsource ▸ hin))
    · exact hfinish (htarget ▸ hin)
  · apply nodup_links_chain
    exact List.nodup_cons.mpr
      ⟨fun hin ↦ hinit (List.mem_cons_of_mem _ hin), (List.nodup_cons.mp hrest).2⟩

theorem nodup_links_setEdge {edges : List Edge} (h : (edges.map Edge.link).Nodup) :
    ((setEdge edge edges).map Edge.link).Nodup := by
  rw [map_link_setEdge]
  split
  · exact h
  · next hnew => exact List.nodup_append.mpr ⟨h, List.nodup_singleton _, by
      intro link hlink other hother heq
      rw [List.mem_singleton.mp hother] at heq
      exact hnew (heq ▸ hlink)⟩

/-- Setting an edge without a duration keeps the edges with one, if it does not hit any. -/
theorem filter_setEdge {edges : List Edge} (huntimed : edge.duration = none)
    (hmiss : ∀ other ∈ edges.filter (·.duration.isSome), other.link ≠ edge.link) :
    (setEdge edge edges).filter (·.duration.isSome) = edges.filter (·.duration.isSome) := by
  unfold setEdge
  split
  · rw [List.filter_map]
    let set (other : Edge) : Edge := if other.link = edge.link then edge else other
    have hset {other : Edge} (hne : other.link ≠ edge.link) : set other = other := if_neg hne
    calc
      (edges.filter ((fun edge ↦ edge.duration.isSome) ∘ set)).map set
          = (edges.filter (·.duration.isSome)).map set := by
        congr 1
        apply List.filter_congr
        intro other hother
        by_cases heq : other.link = edge.link
        · have huntimed' : other.duration.isSome = false := by
            by_contra htimed
            have hsome := Bool.eq_true_of_not_eq_false htimed
            exact hmiss other (List.mem_filter.mpr ⟨hother, hsome⟩) heq
          simp [set, heq, huntimed, huntimed']
        · simp [hset heq]
      _ = edges.filter (·.duration.isSome) := by
        conv_rhs => rw [← List.map_id (edges.filter (·.duration.isSome))]
        apply List.map_congr_left
        intro other hother
        exact hset (hmiss other hother)
  · simp [huntimed]

theorem Plays.duration_eq_none {role : EdgeRole} (h : tree.Plays edge role)
    (hrole : role ≠ .through) : edge.duration = none := by
  cases role with
  | through => exact absurd rfl hrole
  | chain =>
    obtain ⟨operation, -, hedge⟩ := h
    exact duration_of_mem_chain hedge
  | down =>
    obtain ⟨upper, -, lower, -, -, rfl⟩ := h
    rfl
  | up =>
    obtain ⟨upper, -, lower, -, -, rfl⟩ := h
    rfl

/-- In a sound tree an edge has no choice which part to play. -/
theorem Sound.role_eq (h : tree.Sound) {role : EdgeRole} (hplays : tree.Plays edge role) :
    role = .ofLevels (tree.level edge.source) (tree.level edge.target) := by
  cases role with
  | through =>
    obtain ⟨operation, hmem, rfl⟩ := hplays
    simp only [Operation.through]
    rw [h.level_init hmem, h.level_finish hmem]
    rfl
  | chain =>
    obtain ⟨operation, hmem, hedge⟩ := hplays
    have hends := ends_of_mem_chain hedge
    have hsource : tree.level edge.source = 0 ∨ tree.level edge.source = 1 := by
      rcases List.mem_cons.mp hends.1 with heq | hin
      · rw [heq]
        exact .inl (h.level_init hmem)
      · exact .inr (h.level_interval hmem hin)
    have htarget : tree.level edge.target = 1 ∨ tree.level edge.target = 2 := by
      rcases hends.2 with hin | heq
      · exact .inl (h.level_interval hmem hin)
      · rw [heq]
        exact .inr (h.level_finish hmem)
    have hone := (source_or_target_of_mem_chain hedge).imp
      (h.level_interval hmem) (h.level_interval hmem)
    rcases hsource with hsource | hsource <;> rcases htarget with htarget | htarget <;>
      simp_all [EdgeRole.ofLevels]
  | down =>
    obtain ⟨upper, hupper, lower, hlower, -, rfl⟩ := hplays
    rw [h.level_init hupper, h.level_init hlower]
    rfl
  | up =>
    obtain ⟨upper, hupper, lower, hlower, -, rfl⟩ := hplays
    rw [h.level_finish hupper, h.level_finish hlower]
    rfl

/-! ## The invariant -/

/-- What the growth of a tree keeps besides soundness: no two edges join the same nodes, the edges
with a duration are those through the operations, in their order, and there are two nodes for each
operation besides those of intervals. -/
structure Drawn (tree : CallTree) : Prop where
  nodup : tree.links.Nodup
  timed : tree.edges.filter (·.duration.isSome) = tree.operations.map Operation.through
  counted : tree.nodes.length =
    2 * tree.operations.length + tree.nodes.countP (·.kind = .interval)

theorem edges_addOperation (tree : CallTree) (span : Span) (parent : Option OpId)
    (notes : Annotations) :
    (tree.addOperation span parent notes).edges = tree.edges ++
      (Operation.placed tree.nodes.length span parent notes).through ::
        (Operation.placed tree.nodes.length span parent notes).chained := by
  simp [addOperation, Operation.placed, Operation.through, Operation.chained]

/-- The links of a new operation leave new nodes. -/
theorem le_of_mem_links_placed {place source target : NodeId} {span : Span}
    {parent : Option OpId} {notes : Annotations}
    (h : (source, target) ∈ (Operation.placed place span parent notes).links) :
    place ≤ source := by
  have hsource := (ends_of_mem_links h).1
  simp only [Operation.placed, map_id_intervalNodes, List.mem_cons] at hsource
  rcases hsource with heq | hin
  · exact Nat.le_of_eq heq.symm
  · obtain ⟨i, -, heq⟩ := List.mem_map.mp hin
    rw [← heq, Nat.add_assoc]
    exact Nat.le_add_right place (2 + i)

namespace Drawn

theorem drawn_report (h : tree.Drawn) (findings : Findings) : (tree.report findings).Drawn :=
  ⟨h.nodup, h.timed, h.counted⟩

/-- A new operation brings edges between its own nodes only. -/
theorem drawn_addOperation (h : tree.Drawn) (hsound : tree.Sound) {span : Span}
    (parent : Option OpId) (notes : Annotations) (hnew : span.opid ∉ tree.opids) :
    (tree.addOperation span parent notes).Drawn where
  nodup := by
    have hgrown : (tree.addOperation span parent notes).Sound := hsound.sound_addOperation hnew
    have hplaced : Operation.placed tree.nodes.length span parent notes ∈
        (tree.addOperation span parent notes).operations := by simp
    have hids := (hgrown.pairwise_nodeIds hplaced).imp Nat.ne_of_lt
    rw [links_addOperation]
    refine List.nodup_append.mpr ⟨h.nodup, nodup_links_of_nodup_nodeIds hids, ?_⟩
    rintro ⟨source, target⟩ hold _ hlater rfl
    have hlt : source < tree.nodes.length :=
      hsound.lt_length_iff.mpr (hsound.exists_of_linked hold).1
    have hle : tree.nodes.length ≤ source := le_of_mem_links_placed hlater
    omega
  timed := by
    have hchained : (Operation.placed tree.nodes.length span parent notes).chained.filter
        (·.duration.isSome) = [] := by
      apply List.filter_eq_nil_iff.mpr
      intro edge hedge
      simp [duration_of_mem_chain hedge]
    rw [edges_addOperation, List.filter_append, List.filter_cons_of_pos (by rfl), h.timed, hchained,
      operations_addOperation, List.map_append, List.map_singleton]
  counted := by
    have hinner : (intervalNodes span.opid (tree.nodes.length + 2) notes.intervals).countP
        (fun node ↦ node.kind = .interval) = notes.intervals.length := by
      rw [List.countP_eq_length.mpr]
      · simp [intervalNodes]
      · intro node hnode
        obtain ⟨i, hi, rfl⟩ := List.mem_mapIdx.mp hnode
        rfl
    have hbefore := h.counted
    simp only [addOperation, List.length_append, List.countP_append, hinner]
    simp [intervalNodes]
    omega

/-- An attachment joins two `init` nodes and two `finish` nodes, so it hits no edge with a
duration. -/
theorem drawn_attachment (h : tree.Drawn) (hsound : tree.Sound) (hupper : upper ∈ tree.operations)
    (hlower : lower ∈ tree.operations) (hattached : tree.Attachment upper lower attached) :
    attached.Drawn where
  nodup := by
    rw [links, hattached.edges]
    exact nodup_links_setEdge (nodup_links_setEdge h.nodup)
  timed := by
    have hmiss (link : Link) (hlevel : tree.level link.1 = tree.level link.2) :
        ∀ edge ∈ tree.edges.filter (·.duration.isSome), edge.link ≠ link := by
      rw [h.timed]
      intro edge hedge heq
      obtain ⟨operation, hmem, rfl⟩ := List.mem_map.mp hedge
      rw [← heq, Edge.link, Operation.through, hsound.level_init hmem,
        hsound.level_finish hmem] at hlevel
      exact absurd hlevel (by decide)
    have hdown := hmiss (upper.init, lower.init)
      ((hsound.level_init hupper).trans (hsound.level_init hlower).symm)
    have hup := hmiss (lower.finish, upper.finish)
      ((hsound.level_finish hlower).trans (hsound.level_finish hupper).symm)
    have hinner : (setEdge { source := upper.init, target := lower.init } tree.edges).filter
        (·.duration.isSome) = tree.edges.filter (·.duration.isSome) := filter_setEdge rfl hdown
    rw [hattached.edges, hattached.operations, filter_setEdge rfl (by rwa [hinner]), hinner,
      h.timed]
  counted := by
    rw [hattached.nodes, hattached.operations]
    exact h.counted

end Drawn

theorem Growth.Followed.drawn {store : Store} {current : OpId} {growth grown : Growth}
    {row : MapRow} (h : growth.Followed store current row grown) (hsound : growth.tree.Sound)
    (hdrawn : growth.tree.Drawn) : grown.tree.Drawn := by
  cases h with
  | passed _ hgrown =>
    subst hgrown
    exact hdrawn
  | attached _ hupper hlower _ _ hattached _ hgrown =>
    subst hgrown
    exact hdrawn.drawn_attachment hsound hupper hlower hattached
  | refused _ _ _ hgrown =>
    subst hgrown
    exact hdrawn.drawn_report _
  | discarded _ _ _ hgrown =>
    subst hgrown
    exact hdrawn.drawn_report _
  | @entered upper span attributes tree _ hnew hupper _ hresolve _ hattached _ hgrown =>
    subst hgrown
    have hspan := Store.opid_of_resolve hresolve
    rw [← hspan] at hnew
    have hwider := hdrawn.drawn_addOperation hsound (some upper.span.opid)
      (Annotations.ofAttributes row.src attributes) hnew
    have hupper' : upper ∈ (growth.tree.addOperation span (some upper.span.opid)
        (Annotations.ofAttributes row.src attributes)).operations := by simp [hupper]
    exact hwider.drawn_attachment (hsound.sound_addOperation hnew) hupper' (by simp) hattached

theorem drawn_start (root : OpId) (loops : Findings) (span : Span)
    (attributes : List AttributeRow) : (start root loops span attributes).Drawn := by
  have hempty : Sound { root, findings := loops } := sound_of_operations_eq_nil rfl rfl rfl
  have hdrawn : Drawn { root, findings := loops } := ⟨List.nodup_nil, rfl, rfl⟩
  exact hdrawn.drawn_addOperation hempty none _ List.not_mem_nil

theorem drawn_of_build {store : Store} {root : OpId} (h : build store root = .ok tree) :
    tree.Drawn :=
  build_induction (motive := Drawn) (drawn_start root)
    (fun _ findings hdrawn ↦ hdrawn.drawn_report findings)
    (fun _ _ _ _ _ _ _ hsound _ hfollowed hdrawn ↦ hfollowed.drawn hsound hdrawn) h

namespace Drawn

/-- The edges with a duration are those through operations. -/
theorem isSome_duration_iff (h : tree.Drawn) :
    edge ∈ tree.edges ∧ edge.duration.isSome ↔ tree.Plays edge .through := by
  calc
    edge ∈ tree.edges ∧ edge.duration.isSome
        ↔ edge ∈ tree.edges.filter (·.duration.isSome) := by rw [List.mem_filter]
    _ ↔ ∃ operation ∈ tree.operations, operation.through = edge := by
      rw [h.timed, List.mem_map]
    _ ↔ tree.Plays edge .through := by
      simp only [Plays, eq_comm]

/-- An edge that joins the nodes that a part without duration asks for plays that part. -/
theorem eq_of_plays (h : tree.Drawn) (hsound : tree.Sound) (hedge : edge ∈ tree.edges)
    {role : EdgeRole} (hrole : role ≠ .through) (hplays : tree.Plays other role)
    (heq : edge.link = other.link) : edge = other := by
  obtain ⟨hsource, htarget⟩ := Prod.mk.inj heq
  have huntimed : edge.duration = none := by
    by_contra hne
    have hthrough := h.isSome_duration_iff.mp ⟨hedge, Option.isSome_iff_ne_none.mpr hne⟩
    apply hrole
    rw [hsound.role_eq hplays, hsound.role_eq hthrough, hsource, htarget]
  have huntimed' := hplays.duration_eq_none hrole
  cases edge
  cases other
  simp_all

/-- The part is also played if the graph has the link. -/
theorem mem_of_link_mem (h : tree.Drawn) (hsound : tree.Sound) {role : EdgeRole}
    (hrole : role ≠ .through) (hplays : tree.Plays other role) (hlink : other.link ∈ tree.links) :
    other ∈ tree.edges := by
  obtain ⟨edge, hedge, heq⟩ := List.mem_map.mp hlink
  rw [← h.eq_of_plays hsound hedge hrole hplays heq]
  exact hedge

/-- Each edge plays a part. -/
theorem exists_plays (h : tree.Drawn) (hsound : tree.Sound) (hedge : edge ∈ tree.edges) :
    ∃ role, tree.Plays edge role := by
  rcases hsound.sorted edge.link (List.mem_map_of_mem hedge) with
    ⟨operation, hmem, hinner⟩ | ⟨upper, hupper, lower, hlower, hinit, heq⟩
  · rcases List.mem_cons.mp hinner with heq | hchain
    · have hthrough : operation.through ∈ tree.edges :=
        (h.isSome_duration_iff.mpr ⟨operation, hmem, rfl⟩).1
      exact ⟨.through, operation, hmem, List.inj_on_of_nodup_map h.nodup hedge hthrough heq⟩
    · obtain ⟨other, hother, heq⟩ := List.mem_map.mp hchain
      have hplays : tree.Plays other .chain := ⟨operation, hmem, hother⟩
      rw [h.eq_of_plays hsound hedge (by decide) hplays heq.symm]
      exact ⟨.chain, hplays⟩
  · have hne : upper ≠ lower := by
      rintro rfl
      exact hsound.acyclic _ (.single ((hsound.attaches_iff hupper hupper).mpr hinit))
    rcases heq with heq | heq
    · have hplays : tree.Plays { source := upper.init, target := lower.init } .down :=
        ⟨upper, hupper, lower, hlower, hne, rfl⟩
      rw [h.eq_of_plays hsound hedge (by decide) hplays heq]
      exact ⟨.down, hplays⟩
    · have hplays : tree.Plays { source := lower.finish, target := upper.finish } .up :=
        ⟨upper, hupper, lower, hlower, hne, rfl⟩
      rw [h.eq_of_plays hsound hedge (by decide) hplays heq]
      exact ⟨.up, hplays⟩

end Drawn

/-- Attachments come in pairs of links. -/
theorem Sound.mirrored_iff (h : tree.Sound) (hupper : upper ∈ tree.operations)
    (hlower : lower ∈ tree.operations) :
    (upper.init, lower.init) ∈ tree.links ↔ (lower.finish, upper.finish) ∈ tree.links := by
  refine ⟨h.mirrored upper hupper lower hlower, fun hlink ↦ ?_⟩
  obtain ⟨above, habove, below, hbelow, heq, heq', hattaches⟩ :=
    h.attaches_of_level_eq_two hlink (h.level_finish hlower)
  rw [← h.eq_of_finish_eq hlower hbelow heq, ← h.eq_of_finish_eq hupper habove heq'] at hattaches
  exact (h.attaches_iff hupper hlower).mp hattaches

theorem length_flatMap_nodeIds (operations : List Operation) :
    (operations.flatMap Operation.nodeIds).length =
      2 * operations.length + (operations.map (·.intervals.length)).sum := by
  induction operations with
  | nil => rfl
  | cons operation operations ih =>
    rw [List.flatMap_cons, List.length_append, ih, List.length_cons, List.map_cons, List.sum_cons]
    simp only [Operation.nodeIds, List.length_cons]
    omega

/-- The shape of the graph: what the nodes are, and what the edges are. -/
structure Graph (tree : CallTree) : Prop where
  named : ∀ (place : NodeId) (node : Node), tree.nodes[place]? = some node → node.id = place
  node_count : tree.nodes.length =
    2 * tree.operations.length + tree.nodes.countP (·.kind = .interval)
  interval_count : tree.nodes.countP (·.kind = .interval) =
    (tree.operations.map (·.intervals.length)).sum
  nodup : tree.links.Nodup
  role : ∀ edge ∈ tree.edges, ∃! role, tree.Plays edge role
  timed : tree.edges.filter (·.duration.isSome) = tree.operations.map Operation.through
  chained : ∀ operation ∈ tree.operations, operation.chained ⊆ tree.edges ∧
    (operation.chained = [] ↔ operation.intervals = [])
  mirrored : ∀ upper ∈ tree.operations, ∀ lower ∈ tree.operations,
    (upper.init, lower.init) ∈ tree.links ↔ (lower.finish, upper.finish) ∈ tree.links

theorem Drawn.graph (h : tree.Drawn) (hsound : tree.Sound) : tree.Graph where
  named _ _ := hsound.id_eq_of_getElem?
  node_count := h.counted
  interval_count := by
    have hlength := congrArg List.length hsound.numbered
    rw [length_flatMap_nodeIds, List.length_range, h.counted] at hlength
    exact (Nat.add_left_cancel hlength).symm
  nodup := h.nodup
  role edge hedge := by
    obtain ⟨role, hplays⟩ := h.exists_plays hsound hedge
    refine ⟨role, hplays, fun other hother ↦ ?_⟩
    rw [hsound.role_eq hplays, hsound.role_eq hother]
  timed := h.timed
  chained operation hmem := by
    refine ⟨fun edge hedge ↦ ?_, chain_eq_nil⟩
    have hplays : tree.Plays edge .chain := ⟨operation, hmem, hedge⟩
    apply h.mem_of_link_mem hsound (by decide) hplays
    exact hsound.inner operation hmem _ (List.mem_cons_of_mem _ (List.mem_map_of_mem hedge))
  mirrored upper hupper lower hlower := hsound.mirrored_iff hupper hlower

end CallTree

end OpTrace

import OpTrace.Proofs.CallTree.Children
import OpTrace.Proofs.CallTree.Clearance

/-!
# Attaching a child

Whether a child may be attached is decided by a search for a path through the whole graph, and what
is meant is a question about operations: is the child above its parent already? In every tree that
comes up while a tree is built the two agree. A path between two `init` nodes goes from parents to
children all the way, so an attachment is refused exactly if the child is the parent or the parent
lies below it.

An attachment that is made adds its two edges and leaves every other edge as it is. Setting an edge
could overwrite one that is there, but only by its equal, since the edges with a duration join
nodes of different levels.
-/

namespace OpTrace

open Relation

namespace CallTree

/-- The trees that come up while the tree below `root` is built, whether or not the store answers
all questions that follow. -/
inductive Arises (store : Store) (root : OpId) : CallTree → Prop
  /-- no operation has entered -/
  | bare (findings : Findings) : Arises store root { root, findings }
  /-- the root has entered -/
  | start {attributes : List AttributeRow} {expansion : Expansion store} {loops : Findings}
    {span : Span} (hattributes : store.attributesOf root = .ok attributes)
    (hexpansion : expansionOf store root = .ok (expansion, loops))
    (hresolve : store.resolve root = .ok (.complete span)) :
    Arises store root (start root loops span attributes)
  /-- some rows of the operation that is being expanded have been followed -/
  | followed {tree : CallTree} {rejected : List OpId} {next : Expansion store}
    {pending : List (Expansion store)} {made : List (OpId × OpId)} {done rest : List MapRow}
    {growth : Growth} (hpasses : Passes store root tree rejected (next :: pending) made)
    (hrows : next.links = done ++ rest)
    (hgrown : Growth.followAll store next.opid { tree, rejected } done = .ok growth) :
    Arises store root growth.tree
  /-- the child of one more row has entered and is not attached yet -/
  | entered {tree : CallTree} {rejected : List OpId} {next : Expansion store}
    {pending : List (Expansion store)} {made : List (OpId × OpId)} {done rest : List MapRow}
    {row : MapRow} {growth : Growth} {span : Span} {attributes : List AttributeRow}
    (hpasses : Passes store root tree rejected (next :: pending) made)
    (hrows : next.links = done ++ row :: rest)
    (hgrown : Growth.followAll store next.opid { tree, rejected } done = .ok growth)
    (hnew : row.src ∉ growth.tree.opids)
    (hresolve : store.resolve row.src = .ok (.complete span))
    (hattributes : store.attributesOf row.src = .ok attributes) :
    Arises store root (growth.tree.addOperation span (some (growth.parentFor next.opid row))
      (Annotations.ofAttributes row.src attributes))
  /-- all rows have been followed, and some of the operations that entered are prepared -/
  | prepared {tree prepared : CallTree} {rejected earlier later : List OpId}
    {next : Expansion store} {pending waiting : List (Expansion store)}
    {made : List (OpId × OpId)} {growth : Growth}
    (hpasses : Passes store root tree rejected (next :: pending) made)
    (hgrown : Growth.followAll store next.opid { tree, rejected } next.links = .ok growth)
    (hentered : growth.entered = earlier ++ later)
    (hprepared : prepare store growth.tree pending later = .ok (prepared, waiting)) :
    Arises store root prepared

section Runs

variable {store : Store} {root : OpId} {tree : CallTree} {rejected : List OpId}
  {next : Expansion store} {pending : List (Expansion store)} {made : List (OpId × OpId)}
  {done rest : List MapRow} {growth : Growth}

/-- What rows of a passing run keep while they are followed. -/
theorem Passes.sound_and_drawn_of_followAll
    (hpasses : Passes store root tree rejected (next :: pending) made) (hdrawn : tree.Drawn)
    (hrows : next.links = done ++ rest)
    (h : Growth.followAll store next.opid { tree, rejected } done = .ok growth) :
    growth.tree.Sound ∧ growth.tree.Drawn := by
  have hsub : done ⊆ next.links := hrows ▸ List.subset_append_left done rest
  have hall := hpasses.invariant.follow_induction (motive := fun _ growth ↦ growth.tree.Drawn) hsub
    (fun _ _ _ _ _ hprogress hfollowed hkept ↦ hfollowed.drawn hprogress.recorded.sound hkept)
    hdrawn h
  exact ⟨hall.1.recorded.sound, hall.2⟩

theorem Passes.drawn (h : Passes store root tree rejected pending made) : tree.Drawn := by
  induction h with
  | @start attributes expansion loops span => exact drawn_start root loops span attributes
  | @expand tree prepared rejected next pending waiting made grown hpasses hgrown hprepared ih =>
    obtain ⟨-, hdrawn⟩ :=
      hpasses.sound_and_drawn_of_followAll ih (List.append_nil next.links).symm hgrown
    obtain ⟨expansions, findings, -, rfl, -⟩ := of_prepare hprepared
    exact hdrawn.drawn_report findings

/-- Each tree on the way is sound, and its edges are drawn as they should be. -/
theorem Arises.sound_and_drawn (h : Arises store root tree) : tree.Sound ∧ tree.Drawn := by
  cases h with
  | bare findings =>
    exact ⟨sound_of_operations_eq_nil rfl rfl rfl, List.nodup_nil, rfl, rfl⟩
  | @start attributes expansion loops span hattributes hexpansion hresolve =>
    have hpasses := Passes.start hattributes hexpansion hresolve
    exact ⟨hpasses.invariant.recorded.sound, hpasses.drawn⟩
  | followed hpasses hrows hgrown =>
    exact hpasses.sound_and_drawn_of_followAll hpasses.drawn hrows hgrown
  | @entered _ _ _ _ _ _ _ row growth span attributes hpasses hrows hgrown hnew hresolve =>
    obtain ⟨hsound, hdrawn⟩ := hpasses.sound_and_drawn_of_followAll hpasses.drawn hrows hgrown
    rw [← Store.opid_of_resolve hresolve] at hnew
    exact ⟨hsound.sound_addOperation hnew, hdrawn.drawn_addOperation hsound _ _ hnew⟩
  | prepared hpasses hgrown hentered hprepared =>
    obtain ⟨hsound, hdrawn⟩ := hpasses.sound_and_drawn_of_followAll hpasses.drawn
      (List.append_nil _).symm hgrown
    obtain ⟨expansions, findings, -, rfl, -⟩ := of_prepare hprepared
    exact ⟨hsound.sound_report findings, hdrawn.drawn_report findings⟩

theorem Passes.arises (h : Passes store root tree rejected pending made) :
    Arises store root tree := by
  cases h with
  | start hattributes hexpansion hresolve => exact .start hattributes hexpansion hresolve
  | expand hpasses hgrown hprepared =>
    exact .prepared hpasses hgrown (List.nil_append _).symm hprepared

theorem arises_of_build (h : build store root = .ok tree) : Arises store root tree := by
  obtain ⟨rejected, made, hpasses⟩ := exists_passes_of_build h
  exact hpasses.arises

end Runs

/-- Setting an edge adds it and nothing else, if no other edge joins the same nodes. -/
theorem mem_setEdge {edge other : Edge} {edges : List Edge}
    (h : ∀ old ∈ edges, old.link = edge.link → old = edge) :
    other ∈ setEdge edge edges ↔ other ∈ edges ∨ other = edge := by
  unfold setEdge
  split
  · next hlink =>
    obtain ⟨old, hold, heq⟩ := List.mem_map.mp hlink
    have hkeep :
        (edges.map fun other ↦ if other.link = edge.link then edge else other) = edges := by
      conv_rhs => rw [← List.map_id edges]
      apply List.map_congr_left
      intro other hother
      by_cases hjoins : other.link = edge.link
      · rw [if_pos hjoins, h other hother hjoins, id]
      · rw [if_neg hjoins, id]
    have hin : edge ∈ edges := h old hold heq ▸ hold
    rw [hkeep]
    exact ⟨.inl, fun hor ↦ hor.elim id fun heq ↦ heq ▸ hin⟩
  · simp

variable {tree attached : CallTree} {upper lower : Operation} {parent child : OpId}

/-- An attachment of one operation under another adds its two edges and no others. -/
theorem Drawn.mem_edges_attachment (h : tree.Drawn) (hsound : tree.Sound)
    (hupper : upper ∈ tree.operations) (hlower : lower ∈ tree.operations) (hne : upper ≠ lower)
    (hattached : tree.Attachment upper lower attached) {edge : Edge} :
    edge ∈ attached.edges ↔ edge ∈ tree.edges ∨
      edge = { source := upper.init, target := lower.init } ∨
        edge = { source := lower.finish, target := upper.finish } := by
  let down : Edge := { source := upper.init, target := lower.init }
  let up : Edge := { source := lower.finish, target := upper.finish }
  have hdown : tree.Plays down .down := ⟨upper, hupper, lower, hlower, hne, rfl⟩
  have hup : tree.Plays up .up := ⟨upper, hupper, lower, hlower, hne, rfl⟩
  have hmem_down (edge : Edge) : edge ∈ setEdge down tree.edges ↔ edge ∈ tree.edges ∨ edge = down :=
    mem_setEdge fun old hold heq ↦ h.eq_of_plays hsound hold (by decide) hdown heq
  rw [hattached.edges, mem_setEdge, hmem_down, or_assoc]
  intro old hold heq
  rcases (hmem_down old).mp hold with hbefore | rfl
  · exact h.eq_of_plays hsound hbefore (by decide) hup heq
  · -- the two edges join nodes of different levels
    have hrole := hsound.role_eq hdown
    have hrole' := hsound.role_eq hup
    obtain ⟨hsource, htarget⟩ := Prod.mk.inj heq
    rw [← hsource, ← htarget, ← hrole] at hrole'
    cases hrole'

/-- An attachment changes nothing but the edges. -/
theorem Attachment.eq_of_edges (h : tree.Attachment upper lower attached) :
    attached = { tree with edges := attached.edges } := by
  obtain ⟨root, nodes, edges, operations, findings⟩ := attached
  obtain ⟨rfl, rfl, -, rfl, rfl, -⟩ := h
  rfl

def IsChild (tree : CallTree) (parent child : OpId) : Prop := child ∈ tree.childrenOf parent

/-- What an attempt to attach `child` under `parent` does. -/
structure DecidesAttachment (tree : CallTree) (parent child : OpId) : Prop where
  /-- it is refused exactly if the child is the parent or the parent lies below the child -/
  refused_iff : tree.attach? parent child = none ↔
    child = parent ∨ TransGen tree.IsChild child parent
  /-- this is also when the graph has a path back -/
  path_iff : ∀ upper lower, tree.operation? parent = some upper →
    tree.operation? child = some lower →
    (ReflTransGen (Linked tree.links) lower.init upper.init ↔
      child = parent ∨ TransGen tree.IsChild child parent)
  /-- each link of such a path leads from the `init` node of an operation to that of a child -/
  isChild_of_path : ∀ upper lower, tree.operation? parent = some upper →
    tree.operation? child = some lower → ∀ source target,
    ReflTransGen (Linked tree.links) lower.init source → Linked tree.links source target →
    ReflTransGen (Linked tree.links) target upper.init →
    ∃ above below, tree.opidOfInit? source = some above ∧ tree.opidOfInit? target = some below ∧
      tree.IsChild above below
  /-- a growth whose attempt is refused reports that, and all else stays as it was -/
  refused : tree.attach? parent child = none → ∀ (growth : Growth) (row : MapRow),
    growth.tree = tree → row.src = child → growth.attach parent row =
      { growth with tree := tree.report [.cycleSkipped row.id child parent] }
  /-- an attachment changes the edges only, and all it does to them is to add its two -/
  attached : ∀ attached, tree.attach? parent child = some attached →
    ∃ upper lower, tree.operation? parent = some upper ∧ tree.operation? child = some lower ∧
      attached = { tree with edges := attached.edges } ∧
      ∀ edge, edge ∈ attached.edges ↔ edge ∈ tree.edges ∨
        edge = { source := upper.init, target := lower.init } ∨
          edge = { source := lower.finish, target := upper.finish }

namespace Sound

theorem isChild_eq (h : tree.Sound) : tree.IsChild = tree.Attaches := by
  funext parent child
  exact propext h.mem_childrenOf

/-- The operations below one another are those that lie on paths of children. -/
theorem path_attaches_iff (h : tree.Sound) :
    ReflTransGen tree.Attaches child parent ↔
      child = parent ∨ TransGen tree.IsChild child parent := by
  rw [h.isChild_eq, reflTransGen_iff_eq_or_transGen, eq_comm]

/-- A link on a path to an `init` node leads from an operation to a child. -/
theorem isChild_of_path (h : tree.Sound) (hupper : upper ∈ tree.operations)
    {source target : NodeId} (hlink : Linked tree.links source target)
    (hto : ReflTransGen (Linked tree.links) target upper.init) :
    ∃ above below, tree.opidOfInit? source = some above ∧ tree.opidOfInit? target = some below ∧
      tree.IsChild above below := by
  have hlevel : tree.level target = 0 := by
    have hend := h.level_init hupper
    rcases reflTransGen_iff_eq_or_transGen.mp hto with heq | hpath
    · rw [← heq, hend]
    · have hle := level_le_of_transGen (fun _ _ hlink ↦ h.level_le_of_linked hlink) hpath
      omega
  obtain ⟨above, habove, below, hbelow, rfl, rfl, hattaches⟩ :=
    h.attaches_of_level_eq_zero hlink hlevel
  exact ⟨above.span.opid, below.span.opid, h.opidOfInit?_init habove, h.opidOfInit?_init hbelow,
    h.mem_childrenOf.mpr hattaches⟩

theorem attach?_eq_none_iff (h : tree.Sound) (hparent : parent ∈ tree.opids)
    (hchild : child ∈ tree.opids) :
    tree.attach? parent child = none ↔ ReflTransGen tree.Attaches child parent := by
  rcases h.attach?_cases hparent hchild with ⟨hnone, hback⟩ | ⟨_, -, _, -, _, -, -, hsome, -, hback⟩
  · simp only [hnone, hback]
  · simp only [hsome, reduceCtorEq, hback]

end Sound

/-- In every tree that comes up while one is built, attachments are decided as they should be. -/
theorem decidesAttachment_of_arises {store : Store} {root : OpId} (h : Arises store root tree)
    (hparent : parent ∈ tree.opids) (hchild : child ∈ tree.opids) :
    tree.DecidesAttachment parent child := by
  obtain ⟨hsound, hdrawn⟩ := h.sound_and_drawn
  have hrefused := hsound.attach?_eq_none_iff hparent hchild
  refine ⟨hrefused.trans hsound.path_attaches_iff, ?_, ?_, ?_, ?_⟩
  · intro upper lower hupper hlower
    obtain ⟨hmem, rfl⟩ := mem_of_operation? hupper
    obtain ⟨hmem', rfl⟩ := mem_of_operation? hlower
    rw [← reaches_iff, hsound.reaches_init_iff hmem' hmem, hsound.path_attaches_iff]
  · intro upper lower hupper _ source target _ hlink hto
    exact hsound.isChild_of_path (mem_of_operation? hupper).1 hlink hto
  · rintro hnone growth row rfl rfl
    rw [Growth.attach, hnone]
  · intro attached hsome
    obtain ⟨upper, lower, hupper, hlower, -, hattached⟩ := attachment_of_attach? hsome
    obtain ⟨hmem, rfl⟩ := mem_of_operation? hupper
    obtain ⟨hmem', rfl⟩ := mem_of_operation? hlower
    have hne : upper ≠ lower := by
      rintro rfl
      rw [hrefused.mpr .refl] at hsome
      cases hsome
    exact ⟨upper, lower, hupper, hlower, hattached.eq_of_edges,
      fun edge ↦ hdrawn.mem_edges_attachment hsound hmem hmem' hne hattached⟩

/-- In the trace with a late clearance operation, operation 3 is not attached under its own child
2. -/
theorem decidesAttachment_of_detour : ∃ tree, build Detour.trace.toStore 1 = .ok tree ∧
    Arises Detour.trace.toStore 1 tree ∧ 2 ∈ tree.opids ∧ 3 ∈ tree.opids ∧
    tree.DecidesAttachment 2 3 ∧ tree.attach? 2 3 = none := by
  obtain ⟨tree, htree, hopids, -, -, hattaches⟩ := Detour.exists_tree
  have harises := arises_of_build htree
  have hparent : 2 ∈ tree.opids := by rw [hopids]; decide
  have hchild : 3 ∈ tree.opids := by rw [hopids]; decide
  have hdecides := decidesAttachment_of_arises harises hparent hchild
  have hbelow : tree.IsChild 3 2 := harises.sound_and_drawn.1.mem_childrenOf.mpr hattaches
  exact ⟨tree, htree, harises, hparent, hchild, hdecides,
    hdecides.refused_iff.mpr (.inr (.single hbelow))⟩

end CallTree

end OpTrace

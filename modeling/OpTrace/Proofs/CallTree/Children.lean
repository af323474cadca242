import OpTrace.Proofs.CallTree.Edges

/-!
# The children of an operation

`childrenOf` reads the graph. It lists the operations that are attached under an operation, each of
them once, and so also every operation that names this one as its parent.

The order is that of the first attachments, and attaching a child again leaves it where it is.
`attachment?` tells which attachment following a row makes, and `Passes` is a run of the growth up
to some operation together with all attachments that it made, in order. The children are the first
appearances among these.
-/

namespace OpTrace

open Relation Trace

/-- What comes last appears there first, unless it was seen or came before. -/
theorem Trace.firstAppearances_append_singleton (seen opids : List OpId) (opid : OpId) :
    firstAppearances seen (opids ++ [opid]) =
      if opid ∈ seen ∨ opid ∈ opids then firstAppearances seen opids
      else firstAppearances seen opids ++ [opid] := by
  induction opids generalizing seen with
  | nil =>
    simp only [List.nil_append, firstAppearances, List.not_mem_nil, or_false]
  | cons first rest ih =>
    simp only [List.cons_append, firstAppearances]
    by_cases hfirst : first ∈ seen
    · rw [if_pos hfirst, if_pos hfirst, ih]
      by_cases heq : opid = first
      · simp [heq, hfirst]
      · simp [heq]
    · rw [if_neg hfirst, if_neg hfirst, ih]
      simp only [List.mem_cons]
      split <;> simp_all [or_assoc, or_comm, or_left_comm]

namespace CallTree

variable {tree attached : CallTree} {upper lower operation : Operation} {parent child : OpId}

/-- The children are the operations whose `init` nodes links lead to. -/
theorem childrenOf_eq (h : tree.operation? parent = some operation) :
    tree.childrenOf parent =
      (targetsOf tree.links operation.init).filterMap tree.opidOfInit? := by
  unfold childrenOf targetsOf links edgesFrom
  rw [h, List.filter_map, List.map_map, List.filterMap_map]
  rfl

theorem childrenOf_eq_nil (h : parent ∉ tree.opids) : tree.childrenOf parent = [] := by
  have hnone : tree.operation? parent = none := by
    cases hoperation : tree.operation? parent with
    | none => rfl
    | some operation =>
      obtain ⟨hmem, rfl⟩ := mem_of_operation? hoperation
      exact absurd (mem_opids_of_mem hmem) h
  simp [childrenOf, hnone]

namespace Sound

theorem opidOfInit?_init (h : tree.Sound) (hmem : operation ∈ tree.operations) :
    tree.opidOfInit? operation.init = some operation.span.opid := by
  obtain ⟨notes, hshows⟩ := h.shown operation hmem
  simp [opidOfInit?, hshows.init]

theorem level_eq_zero_of_opidOfInit? {id : NodeId} (h : tree.opidOfInit? id = some child) :
    tree.level id = 0 := by
  unfold opidOfInit? at h
  unfold level
  cases hnode : tree.node? id with
  | none => rfl
  | some node =>
    by_cases hkind : node.kind = .init
    · simp [hkind, kindLevel]
    · simp [hnode, hkind] at h

/-- The children are what is attached. -/
theorem mem_childrenOf (h : tree.Sound) :
    child ∈ tree.childrenOf parent ↔ tree.Attaches parent child := by
  by_cases hparent : parent ∈ tree.opids
  · obtain ⟨upper, hupper, rfl⟩ := exists_of_mem_opids hparent
    rw [childrenOf_eq (h.operation?_of_mem hupper), List.mem_filterMap]
    constructor
    · rintro ⟨target, htarget, hchild⟩
      have hlink := mem_targetsOf.mp htarget
      obtain ⟨above, habove, lower, hlower, heq, rfl, hattaches⟩ :=
        h.attaches_of_level_eq_zero hlink (level_eq_zero_of_opidOfInit? hchild)
      rw [h.opidOfInit?_init hlower] at hchild
      rw [h.eq_of_init_eq hupper habove heq, ← Option.some.inj hchild]
      exact hattaches
    · rintro ⟨above, habove, lower, hlower, heq, rfl, hlink⟩
      rw [h.eq_of_opid_eq habove hupper heq] at hlink
      exact ⟨lower.init, mem_targetsOf.mpr hlink, h.opidOfInit?_init hlower⟩
  · rw [childrenOf_eq_nil hparent]
    constructor
    · exact fun hmem ↦ absurd hmem List.not_mem_nil
    · rintro ⟨upper, hupper, -, -, rfl, -⟩
      exact absurd (mem_opids_of_mem hupper) hparent

end Sound

@[simp] theorem childrenOf_report (tree : CallTree) (findings : Findings) (parent : OpId) :
    (tree.report findings).childrenOf parent = tree.childrenOf parent := rfl

theorem targetsOf_append (links more : List Link) (node : Nat) :
    targetsOf (links ++ more) node = targetsOf links node ++ targetsOf more node := by
  simp [targetsOf]

/-- A new operation has no children, and it is nobody's child yet. -/
theorem Sound.childrenOf_addOperation (h : tree.Sound) {span : Span} (above : Option OpId)
    (notes : Annotations) (hnew : span.opid ∉ tree.opids) (parent : OpId) :
    (tree.addOperation span above notes).childrenOf parent = tree.childrenOf parent := by
  have hgrown : (tree.addOperation span above notes).Sound := h.sound_addOperation hnew
  by_cases hparent : parent ∈ tree.opids
  · obtain ⟨upper, hupper, rfl⟩ := exists_of_mem_opids hparent
    have hupper' : upper ∈ (tree.addOperation span above notes).operations := by simp [hupper]
    have hinit : upper.init < tree.nodes.length :=
      h.lt_length_iff.mpr ⟨upper, hupper, List.mem_cons_self⟩
    have hown : targetsOf (Operation.placed tree.nodes.length span above notes).links
        upper.init = [] := by
      apply List.eq_nil_iff_forall_not_mem.mpr
      intro target htarget
      exact absurd hinit (Nat.not_lt.mpr (le_of_mem_links_placed (mem_targetsOf.mp htarget)))
    rw [childrenOf_eq (hgrown.operation?_of_mem hupper'),
      childrenOf_eq (h.operation?_of_mem hupper), links_addOperation, targetsOf_append, hown,
      List.append_nil]
    apply List.filterMap_congr
    intro target htarget
    have hlt : target < tree.nodes.length :=
      h.lt_length_iff.mpr (h.exists_of_linked (mem_targetsOf.mp htarget)).2
    obtain ⟨more, hmore⟩ := nodes_prefix_addOperation tree span above notes
    rw [opidOfInit?, opidOfInit?, node?, node?, ← hmore, List.getElem?_append_left hlt]
  · rw [childrenOf_eq_nil hparent]
    apply List.eq_nil_iff_forall_not_mem.mpr
    intro child hchild
    obtain ⟨upper, hupper, -, -, rfl, -⟩ :=
      h.attaches_of_attaches_addOperation (hgrown.mem_childrenOf.mp hchild)
    exact hparent (mem_opids_of_mem hupper)

/-- Setting an edge without one between its nodes gives its source one target more. -/
theorem targetsOf_setEdge (edge : Edge) (edges : List Edge) (node : NodeId) :
    targetsOf ((setEdge edge edges).map Edge.link) node =
      if edge.source = node ∧ edge.target ∉ targetsOf (edges.map Edge.link) node then
        targetsOf (edges.map Edge.link) node ++ [edge.target]
      else targetsOf (edges.map Edge.link) node := by
  rw [map_link_setEdge]
  by_cases hold : edge.link ∈ edges.map Edge.link
  · rw [if_pos hold, if_neg]
    rintro ⟨rfl, hnew⟩
    exact hnew (mem_targetsOf.mpr hold)
  · rw [if_neg hold, targetsOf_append]
    by_cases hsource : edge.source = node
    · subst hsource
      rw [if_pos ⟨rfl, fun hin ↦ hold (mem_targetsOf.mp hin)⟩]
      simp [targetsOf, Edge.link]
    · rw [if_neg fun hboth ↦ hsource hboth.1]
      simp [targetsOf, Edge.link, hsource]

/-- An attachment puts its child behind the other children of its parent, unless it is there. -/
theorem Sound.childrenOf_attachment (h : tree.Sound) (hgrown : attached.Sound)
    (hupper : upper ∈ tree.operations) (hlower : lower ∈ tree.operations)
    (hattached : tree.Attachment upper lower attached) (parent : OpId) :
    attached.childrenOf parent =
      if upper.span.opid = parent ∧ lower.span.opid ∉ tree.childrenOf parent then
        tree.childrenOf parent ++ [lower.span.opid]
      else tree.childrenOf parent := by
  have hopidOfInit (id : NodeId) : attached.opidOfInit? id = tree.opidOfInit? id := by
    rw [opidOfInit?, opidOfInit?, node?, node?, hattached.nodes]
  by_cases hparent : parent ∈ tree.opids
  · obtain ⟨above, habove, rfl⟩ := exists_of_mem_opids hparent
    have habove' : above ∈ attached.operations := hattached.operations ▸ habove
    have hup : lower.finish ≠ above.init := by
      intro heq
      have hlevel := h.level_finish hlower
      rw [heq, h.level_init habove] at hlevel
      exact absurd hlevel (by decide)
    have htargets : targetsOf attached.links above.init =
        if upper.init = above.init ∧ lower.init ∉ targetsOf tree.links above.init then
          targetsOf tree.links above.init ++ [lower.init]
        else targetsOf tree.links above.init := by
      rw [links, hattached.edges, targetsOf_setEdge, if_neg fun hfinish ↦ hup hfinish.1,
        targetsOf_setEdge]
      rfl
    have hinit : upper.init = above.init ↔ upper.span.opid = above.span.opid :=
      ⟨fun heq ↦ by rw [h.eq_of_init_eq hupper habove heq],
        fun heq ↦ by rw [h.eq_of_opid_eq hupper habove heq]⟩
    have hchild : lower.init ∈ targetsOf tree.links above.init ↔
        lower.span.opid ∈ tree.childrenOf above.span.opid := by
      rw [h.mem_childrenOf, h.attaches_iff habove hlower, mem_targetsOf]
    rw [childrenOf_eq (hgrown.operation?_of_mem habove'), htargets, funext hopidOfInit]
    simp only [hinit, hchild]
    rw [childrenOf_eq (h.operation?_of_mem habove)]
    split
    · rw [List.filterMap_append]
      simp [h.opidOfInit?_init hlower]
    · rfl
  · have hne : upper.span.opid ≠ parent := by
      rintro rfl
      exact hparent (mem_opids_of_mem hupper)
    rw [childrenOf_eq_nil hparent, childrenOf_eq_nil (hattached.opids_eq ▸ hparent),
      if_neg fun heq ↦ hne heq.1]

/-! ## Attachments in the order in which they are made -/

/-- The children that attachments give to a parent, in their order. -/
def childrenIn (attachments : List (OpId × OpId)) (parent : OpId) : List OpId :=
  (attachments.filter (·.1 = parent)).map (·.2)

/-- The children of each operation are listed in the order of their first attachment. -/
def Ordered (tree : CallTree) (attachments : List (OpId × OpId)) : Prop :=
  ∀ parent, tree.childrenOf parent = firstAppearances [] (childrenIn attachments parent)

theorem Ordered.of_childrenOf_eq {grown : CallTree} {attachments : List (OpId × OpId)}
    (h : tree.Ordered attachments)
    (hsame : ∀ parent, grown.childrenOf parent = tree.childrenOf parent) :
    grown.Ordered attachments := fun parent ↦ (hsame parent).trans (h parent)

/-- An attachment comes last. -/
theorem Ordered.ordered_attachment {attachments : List (OpId × OpId)}
    (h : tree.Ordered attachments) (hsound : tree.Sound) (hgrown : attached.Sound)
    (hupper : upper ∈ tree.operations) (hlower : lower ∈ tree.operations)
    (hattached : tree.Attachment upper lower attached) :
    attached.Ordered (attachments ++ [(upper.span.opid, lower.span.opid)]) := by
  intro parent
  have hmem : lower.span.opid ∈ tree.childrenOf parent ↔
      lower.span.opid ∈ childrenIn attachments parent := by
    rw [h parent, mem_firstAppearances]
    simp
  rw [hsound.childrenOf_attachment hgrown hupper hlower hattached, childrenIn, List.filter_append,
    List.map_append, ← childrenIn]
  by_cases heq : upper.span.opid = parent
  · have hlast : childrenIn [(upper.span.opid, lower.span.opid)] parent = [lower.span.opid] := by
      simp [childrenIn, heq]
    rw [← childrenIn, hlast, firstAppearances_append_singleton]
    simp only [hmem]
    rw [h parent]
    by_cases hold : lower.span.opid ∈ childrenIn attachments parent
    · simp [hold]
    · simp [hold, heq]
  · have hlast : childrenIn [(upper.span.opid, lower.span.opid)] parent = [] := by
      simp [childrenIn, heq]
    rw [← childrenIn, hlast, List.append_nil, if_neg fun hboth ↦ heq hboth.1, h parent]

namespace Growth

/-- The attachment that following a row makes, if it makes one: the parent and the child. -/
def attachment? (store : Store) (current : OpId) (growth : Growth) (row : MapRow) :
    Option (OpId × OpId) :=
  let parent := growth.parentFor current row
  if row.src ∈ growth.rejected then none
  else if growth.tree.contains row.src then
    (growth.tree.attach? parent row.src).map fun _ ↦ (parent, row.src)
  else
    match store.resolve row.src with
    | .ok (.complete _) => some (parent, row.src)
    | _ => none

def attachments (store : Store) (current : OpId) (growth : Growth) :
    List MapRow → List (OpId × OpId)
  | [] => []
  | row :: rows =>
    (growth.attachment? store current row).toList ++
      match growth.follow store current row with
      | .ok next => next.attachments store current rows
      | .error _ => []

variable {store : Store} {root current : OpId} {growth grown : Growth} {row : MapRow}
  {before : List (OpId × OpId)}

/-- Following a row keeps the order of the children. -/
theorem Followed.ordered (h : growth.Followed store current row grown)
    (hsound : growth.tree.Sound) (hcurrent : current ∈ growth.tree.opids)
    (hordered : growth.tree.Ordered before) :
    grown.tree.Ordered (before ++ (growth.attachment? store current row).toList) := by
  have hparent := parentFor_mem hcurrent row
  cases h with
  | passed hrejected hgrown =>
    subst hgrown
    simpa [attachment?, hrejected] using hordered
  | @attached upper lower tree hrejected hupper hlower heq hchild hattached hgrown' hgrown =>
    subst hgrown
    have hknown : row.src ∈ growth.tree.opids := hchild ▸ mem_opids_of_mem hlower
    have hmade : growth.attachment? store current row =
        some (upper.span.opid, lower.span.opid) := by
      rcases hsound.attach?_cases hparent hknown with ⟨-, hback⟩ | ⟨_, -, _, -, _, -, -, hsome, -⟩
      · -- the attachment would have closed a cycle
        have hattaches : tree.Attaches upper.span.opid lower.span.opid :=
          ⟨upper, hattached.operations ▸ hupper, lower, hattached.operations ▸ hlower, rfl, rfl,
            hattached.mem_links.mpr (.inr (.inl rfl))⟩
        rw [← heq, ← hchild] at hback
        have hpath := (Extends.of_attachment hattached).path hback
        exact absurd (TransGen.tail' hpath hattaches) (hgrown'.acyclic _)
      · simp [attachment?, hrejected, contains, hknown, hsome, heq, hchild]
    rw [hmade]
    exact hordered.ordered_attachment hsound hgrown' hupper hlower hattached
  | refused hrejected hknown hback hgrown =>
    subst hgrown
    have hnone : growth.attachment? store current row = none := by
      rcases hsound.attach?_cases hparent hknown with ⟨hnone, -⟩ | ⟨_, -, _, -, _, -, -, -, -, hno⟩
      · simp [attachment?, hrejected, contains, hknown, hnone]
      · exact absurd hback hno
    rw [hnone, Option.toList_none, List.append_nil]
    exact hordered.of_childrenOf_eq fun _ ↦ rfl
  | discarded hrejected hnew hresolve hgrown =>
    subst hgrown
    have hnone : growth.attachment? store current row = none := by
      simp [attachment?, hrejected, contains, hnew, hresolve]
    rw [hnone, Option.toList_none, List.append_nil]
    exact hordered.of_childrenOf_eq fun _ ↦ rfl
  | @entered upper span attributes tree hrejected hnew hupper heq hresolve _ hattached hgrown'
      hgrown =>
    subst hgrown
    have hspan := Store.opid_of_resolve hresolve
    have hmade : growth.attachment? store current row = some (upper.span.opid, span.opid) := by
      simp [attachment?, hrejected, contains, hnew, hresolve, heq, hspan]
    rw [← hspan] at hnew
    have hwider := hordered.of_childrenOf_eq
      (hsound.childrenOf_addOperation (some upper.span.opid)
        (Annotations.ofAttributes row.src attributes) hnew)
    rw [hmade]
    exact hwider.ordered_attachment (hsound.sound_addOperation hnew) hgrown' (by simp [hupper])
      (by simp) hattached

/-- Following rows keeps the order of the children. -/
theorem ordered_of_followAll {tree : CallTree} {rejected : List OpId} {next : Expansion store}
    {loops : Findings} {done rows : List MapRow}
    (hcurrent : next.opid ∈ tree.opids)
    (hexpansion : expansionOf store next.opid = .ok (next, loops)) (hrows : rows ⊆ next.links)
    (hprogress : Progress store root next.opid tree rejected done growth)
    (hordered : growth.tree.Ordered before)
    (h : growth.followAll store next.opid rows = .ok grown) :
    grown.tree.Ordered (before ++ growth.attachments store next.opid rows) := by
  induction rows generalizing growth done before with
  | nil =>
    cases h
    simpa [attachments] using hordered
  | cons row rows ih =>
    obtain ⟨later, hlater, h⟩ := bind_eq_ok.mp h
    obtain ⟨hfollowed, hprogress'⟩ :=
      hprogress.step hcurrent hexpansion (hrows List.mem_cons_self) hlater
    have hordered' := hfollowed.ordered hprogress.recorded.sound
      (hprogress.extends_tree.mem_opids hcurrent) hordered
    rw [attachments, hlater, ← List.append_assoc]
    exact ih (List.Subset.trans (List.subset_cons_self _ _) hrows) hprogress' hordered' h

end Growth

/-! ## Runs -/

/-- A run of the growth below `root` comes by the tree, the rejected children and the operations
that wait, and it has made the attachments so far. -/
inductive Passes (store : Store) (root : OpId) :
    CallTree → List OpId → List (Expansion store) → List (OpId × OpId) → Prop
  | start {attributes : List AttributeRow} {expansion : Expansion store} {loops : Findings}
    {span : Span} (hattributes : store.attributesOf root = .ok attributes)
    (hexpansion : expansionOf store root = .ok (expansion, loops))
    (hresolve : store.resolve root = .ok (.complete span)) :
    Passes store root (start root loops span attributes) [] [expansion] []
  | expand {tree prepared : CallTree} {rejected : List OpId} {next : Expansion store}
    {pending waiting : List (Expansion store)} {made : List (OpId × OpId)} {grown : Growth}
    (hpasses : Passes store root tree rejected (next :: pending) made)
    (hgrown : Growth.followAll store next.opid { tree, rejected } next.links = .ok grown)
    (hprepared : prepare store grown.tree pending grown.entered = .ok (prepared, waiting)) :
    Passes store root prepared grown.rejected waiting
      (made ++ Growth.attachments store next.opid { tree, rejected } next.links)

section Runs

variable {store : Store} {root : OpId} {rejected : List OpId} {pending : List (Expansion store)}
  {made : List (OpId × OpId)}

theorem Passes.invariant (h : Passes store root tree rejected pending made) :
    Invariant store root tree rejected pending := by
  induction h with
  | start hattributes hexpansion hresolve =>
    exact invariant_start hattributes hexpansion hresolve
  | expand _ hgrown hprepared ih => exact invariant_step ih hgrown hprepared

/-- What a run keeps while it follows the rows of one operation. -/
theorem Passes.progress_of_followAll {next : Expansion store} {done rest : List MapRow}
    {growth : Growth} (h : Passes store root tree rejected (next :: pending) made)
    (hrows : next.links = done ++ rest)
    (hgrowth : Growth.followAll store next.opid { tree, rejected } done = .ok growth) :
    Progress store root next.opid tree rejected done growth := by
  have hsub : done ⊆ next.links := hrows ▸ List.subset_append_left done rest
  exact h.invariant.progress_of_followAll hsub hgrowth

/-- Wherever a run comes by, the children are in the order of their first attachment. -/
theorem Passes.ordered (h : Passes store root tree rejected pending made) : tree.Ordered made := by
  induction h with
  | @start attributes expansion loops span hattributes hexpansion hresolve =>
    intro parent
    have hempty : Sound { root, findings := loops } := sound_of_operations_eq_nil rfl rfl rfl
    rw [CallTree.start, hempty.childrenOf_addOperation none _ List.not_mem_nil]
    rfl
  | @expand tree prepared rejected next pending waiting made grown hpasses hgrown hprepared ih =>
    have hinvariant := hpasses.invariant
    obtain ⟨hcurrent, loops, hexpansion⟩ := hinvariant.waiting next List.mem_cons_self
    have hprogress := Progress.refl hinvariant.recorded hinvariant.rooted next.opid
    have hordered := Growth.ordered_of_followAll hcurrent hexpansion (List.Subset.refl _)
      hprogress ih hgrown
    obtain ⟨expansions, findings, -, rfl, -⟩ := of_prepare hprepared
    exact hordered

/-- Each tree that is built is where a run ends. -/
theorem exists_passes_of_build (h : build store root = .ok tree) :
    ∃ rejected made, Passes store root tree rejected [] made := by
  obtain ⟨attributes, expansion, loops, span, hattributes, hexpansion, hresolve, hrun⟩ :=
    of_build h
  exact expandAll_induction
    (motive := fun tree rejected pending ↦ ∃ made, Passes store root tree rejected pending made)
    (fun _ _ _ _ _ _ _ ⟨made, hpasses⟩ hgrown hprepared ↦ ⟨_, hpasses.expand hgrown hprepared⟩)
    ⟨[], .start hattributes hexpansion hresolve⟩ hrun

end Runs

/-- The children of an operation are what is attached under it, each once, and so is everything
that names it as its parent. -/
structure HasChildren (tree : CallTree) (parent : OpId) : Prop where
  nodup : (tree.childrenOf parent).Nodup
  mem_iff : ∀ child, child ∈ tree.childrenOf parent ↔ tree.Attaches parent child
  own : ∀ operation ∈ tree.operations, operation.parent = some parent →
    operation.span.opid ∈ tree.childrenOf parent

/-- The parent of an operation is one that it is attached under. -/
theorem Rooted.attaches_of_parent (h : tree.Rooted) (hmem : operation ∈ tree.operations)
    (hparent : operation.parent = some parent) : tree.Attaches parent operation.span.opid := by
  obtain ⟨place, hget⟩ := List.mem_iff_getElem?.mp hmem
  have hplace : 0 < place := by
    rcases Nat.eq_zero_or_pos place with rfl | hpos
    · obtain ⟨top, htop, -, hnone⟩ := h.top
      rw [Option.some.inj (htop.symm.trans hget), hparent] at hnone
      cases hnone
    · exact hpos
  obtain ⟨earlier, upper, -, hget', hparent', hlink⟩ := h.under hplace hget
  have heq : upper.span.opid = parent := Option.some.inj (hparent'.symm.trans hparent)
  exact ⟨upper, List.mem_of_getElem? hget', operation, hmem, heq, rfl, hlink⟩

/-- What the graph of a tree that is built looks like, and which children its operations have. The
run that ends in the tree attached the children of each operation for the first time in the order
in which they are listed. -/
theorem graph_of_build {store : Store} {root : OpId} (h : build store root = .ok tree) :
    tree.Graph ∧ (∀ parent, tree.HasChildren parent) ∧
      (∃ rejected made, Passes store root tree rejected [] made) ∧
      ∀ rejected made, Passes store root tree rejected [] made → ∀ parent,
        tree.childrenOf parent = firstAppearances [] (childrenIn made parent) := by
  obtain ⟨rejected, made, hpasses⟩ := exists_passes_of_build h
  have hsound := hpasses.invariant.recorded.sound
  refine ⟨(drawn_of_build h).graph hsound, fun parent ↦ ?_, ⟨rejected, made, hpasses⟩,
    fun _ _ hother ↦ hother.ordered⟩
  refine ⟨?_, fun child ↦ hsound.mem_childrenOf, fun operation hmem hparent ↦ ?_⟩
  · rw [hpasses.ordered parent]
    exact nodup_firstAppearances [] _
  · exact hsound.mem_childrenOf.mpr (hpasses.invariant.rooted.attaches_of_parent hmem hparent)

/-- The graph of the tangled trace has its shape, and the run attached the children in the order in
which they are listed. Operation 5 is a child of the root, which it was met under, and of its
clearance operation. The dropped link makes the root nobody's child, and the discarded operation is
no child of 2. -/
theorem graph_of_tangled : ∃ tree, build Tangled.trace.toStore 1 = .ok tree ∧ tree.Graph ∧
    (∀ parent, tree.HasChildren parent) ∧ tree.nodes.length = 2 * 4 + 1 ∧
    (tree.childrenOf 1 = [2, 5] ∧ tree.childrenOf 2 = [3] ∧ tree.childrenOf 3 = [5]) ∧
    ∃ rejected made, Passes Tangled.trace.toStore 1 tree rejected [] made ∧
      firstAppearances [] (childrenIn made 1) = [2, 5] := by
  obtain ⟨tree, htree, -, -, hnodes, hroot, hsecond, hthird⟩ := Tangled.exists_tree
  obtain ⟨hgraph, hchildren, ⟨rejected, made, hpasses⟩, hordered⟩ := graph_of_build htree
  refine ⟨tree, htree, hgraph, hchildren, hnodes, ⟨hroot, hsecond, hthird⟩, rejected, made,
    hpasses, ?_⟩
  rw [← hordered rejected made hpasses 1]
  exact hroot

end CallTree

end OpTrace

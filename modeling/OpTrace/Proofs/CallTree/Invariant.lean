import OpTrace.Proofs.CallTree.Run
import OpTrace.Proofs.Finding

/-!
# The invariant of a run

What is true of a call tree and its store whenever an operation is taken up for expansion. The
tree records what the store says of its operations and discards each rejected child once. Each
operation of the tree either waits, or all rows that lead to its children are accounted for: the
child was rejected, or an attachment was made or refused.

The invariant asks nothing of the store. It holds of every tree that `build` gives, with no
operation left that waits.
-/

namespace OpTrace

open Relation

namespace CallTree

/-- Everything in a tree is in the other as well. -/
structure Extends (tree grown : CallTree) : Prop where
  operations : tree.operations ⊆ grown.operations
  links : tree.links ⊆ grown.links
  findings : tree.findings ⊆ grown.findings

namespace Extends

variable {tree grown final : CallTree}

theorem refl (tree : CallTree) : tree.Extends tree :=
  ⟨List.Subset.refl _, List.Subset.refl _, List.Subset.refl _⟩

theorem trans (h : tree.Extends grown) (h' : grown.Extends final) : tree.Extends final :=
  ⟨List.Subset.trans h.operations h'.operations, List.Subset.trans h.links h'.links,
    List.Subset.trans h.findings h'.findings⟩

theorem mem_opids (h : tree.Extends grown) {opid : OpId} (hopid : opid ∈ tree.opids) :
    opid ∈ grown.opids := by
  obtain ⟨operation, hmem, rfl⟩ := exists_of_mem_opids hopid
  exact mem_opids_of_mem (h.operations hmem)

theorem attaches (h : tree.Extends grown) {parent child : OpId}
    (hattaches : tree.Attaches parent child) : grown.Attaches parent child := by
  obtain ⟨upper, hupper, lower, hlower, heq, heq', hlink⟩ := hattaches
  exact ⟨upper, h.operations hupper, lower, h.operations hlower, heq, heq', h.links hlink⟩

theorem path (h : tree.Extends grown) {parent child : OpId}
    (hpath : ReflTransGen tree.Attaches parent child) :
    ReflTransGen grown.Attaches parent child :=
  hpath.lift id fun _ _ ↦ h.attaches

theorem report (tree : CallTree) (findings : Findings) : tree.Extends (tree.report findings) :=
  ⟨List.Subset.refl _, List.Subset.refl _, List.subset_append_left _ _⟩

theorem addOperation (tree : CallTree) (span : Span) (parent : Option OpId)
    (notes : Annotations) : tree.Extends (tree.addOperation span parent notes) := by
  refine ⟨?_, ?_, ?_⟩
  · rw [operations_addOperation]
    exact List.subset_append_left _ _
  · rw [links_addOperation]
    exact List.subset_append_left _ _
  · rw [findings_addOperation]
    exact List.subset_append_left _ _

theorem of_attachment {upper lower : Operation} (h : tree.Attachment upper lower grown) :
    tree.Extends grown :=
  ⟨h.operations ▸ List.Subset.refl _, fun _ hlink ↦ h.mem_links.mpr (.inl hlink),
    h.findings ▸ List.Subset.refl _⟩

end Extends

/-- The operations below a root: the root, and what the rows of an operation below it name as a
child, if that has a complete span. -/
inductive Below (store : Store) (root : OpId) : OpId → Prop
  | root : Below store root root
  | child {opid : OpId} {expansion : Expansion store} {loops : Findings} {row : MapRow}
    {span : Span} (habove : Below store root opid)
    (hexpansion : expansionOf store opid = .ok (expansion, loops))
    (hrow : row ∈ expansion.links) (hresolve : store.resolve row.src = .ok (.complete span)) :
    Below store root row.src

/-- The tree says of its operations what the store says, and each finding has its reason. -/
structure Recorded (store : Store) (root : OpId) (tree : CallTree) (rejected : List OpId) :
    Prop where
  root_eq : tree.root = root
  sound : tree.Sound
  below : ∀ opid ∈ tree.opids, Below store root opid
  resolved : ∀ operation ∈ tree.operations,
    store.resolve operation.span.opid = .ok (.complete operation.span)
  noted : ∀ operation ∈ tree.operations, ∃ attributes,
    store.attributesOf operation.span.opid = .ok attributes ∧
      tree.Shows operation (Annotations.ofAttributes operation.span.opid attributes)
  rejects : ∀ opid ∈ rejected, ∃ finding, store.resolve opid = .ok (.incomplete finding)
  discards : ∀ opid, tree.findings.discardsOf opid = if opid ∈ rejected then 1 else 0
  skips : ∀ map src attach, .cycleSkipped map src attach ∈ tree.findings →
    ReflTransGen tree.Attaches src attach

namespace Recorded

variable {store : Store} {root : OpId} {tree : CallTree} {rejected : List OpId}

/-- Links that would close a cycle may be reported. -/
theorem recorded_report (h : Recorded store root tree rejected) {findings : Findings}
    (hfindings : ∀ finding ∈ findings, ∃ map src attach,
      finding = .cycleSkipped map src attach ∧ ReflTransGen tree.Attaches src attach) :
    Recorded store root (tree.report findings) rejected where
  root_eq := h.root_eq
  sound := h.sound.sound_report findings
  below := h.below
  resolved := h.resolved
  noted operation hmem := by
    obtain ⟨attributes, hattributes, hshows⟩ := h.noted operation hmem
    exact ⟨attributes, hattributes, hshows.report findings⟩
  rejects := h.rejects
  discards opid := by
    rw [findings_report, Findings.discardsOf_append, h.discards, Findings.discardsOf_eq_zero]
    · rfl
    · intro finding hfinding
      obtain ⟨map, src, attach, rfl, -⟩ := hfindings finding hfinding
      rfl
  skips map src attach hfinding := by
    rcases List.mem_append.mp hfinding with hold | hnew
    · exact h.skips map src attach hold
    · obtain ⟨_, _, _, heq, hpath⟩ := hfindings _ hnew
      cases heq
      exact hpath

theorem recorded_attachment (h : Recorded store root tree rejected) {upper lower : Operation}
    {attached : CallTree} (hattached : tree.Attachment upper lower attached)
    (hsound : attached.Sound) : Recorded store root attached rejected where
  root_eq := hattached.root.trans h.root_eq
  sound := hsound
  below := by
    rw [opids, hattached.operations]
    exact h.below
  resolved := by
    rw [hattached.operations]
    exact h.resolved
  noted operation hmem := by
    rw [hattached.operations] at hmem
    obtain ⟨attributes, hattributes, hshows⟩ := h.noted operation hmem
    exact ⟨attributes, hattributes, hshows.mono (hattached.nodes ▸ List.prefix_rfl)⟩
  rejects := h.rejects
  discards := by
    rw [hattached.findings]
    exact h.discards
  skips map src attach hfinding := by
    rw [hattached.findings] at hfinding
    exact (Extends.of_attachment hattached).path (h.skips map src attach hfinding)

theorem recorded_addOperation (h : Recorded store root tree rejected) {span : Span}
    {attributes : List AttributeRow} (parent : Option OpId) (hnew : span.opid ∉ tree.opids)
    (hbelow : Below store root span.opid)
    (hresolve : store.resolve span.opid = .ok (.complete span))
    (hattributes : store.attributesOf span.opid = .ok attributes) :
    Recorded store root
      (tree.addOperation span parent (Annotations.ofAttributes span.opid attributes))
      rejected where
  root_eq := h.root_eq
  sound := h.sound.sound_addOperation hnew
  below opid hopid := by
    rw [opids_addOperation, List.mem_append, List.mem_singleton] at hopid
    rcases hopid with hold | rfl
    · exact h.below opid hold
    · exact hbelow
  resolved operation hmem := by
    rw [operations_addOperation, List.mem_append, List.mem_singleton] at hmem
    rcases hmem with hold | rfl
    · exact h.resolved operation hold
    · exact hresolve
  noted operation hmem := by
    rw [operations_addOperation, List.mem_append, List.mem_singleton] at hmem
    rcases hmem with hold | rfl
    · obtain ⟨attributes', hattributes', hshows⟩ := h.noted operation hold
      exact ⟨attributes', hattributes', hshows.mono (nodes_prefix_addOperation tree span parent _)⟩
    · exact ⟨attributes, hattributes, shows_addOperation tree span parent _⟩
  rejects := h.rejects
  discards opid := by
    rw [findings_addOperation, Findings.discardsOf_append, h.discards,
      Annotations.discardsOf_findings, Nat.add_zero]
  skips map src attach hfinding := by
    rw [findings_addOperation, List.mem_append] at hfinding
    refine (Extends.addOperation tree span parent _).path (h.skips map src attach ?_)
    exact hfinding.resolve_right (Annotations.cycleSkipped_notMem_findings map src attach)

theorem recorded_discard (h : Recorded store root tree rejected) {opid : OpId}
    {finding : Finding} (hrejected : opid ∉ rejected)
    (hresolve : store.resolve opid = .ok (.incomplete finding)) :
    Recorded store root (tree.report [finding]) (opid :: rejected) where
  root_eq := h.root_eq
  sound := h.sound.sound_report [finding]
  below := h.below
  resolved := h.resolved
  noted operation hmem := by
    obtain ⟨attributes, hattributes, hshows⟩ := h.noted operation hmem
    exact ⟨attributes, hattributes, hshows.report [finding]⟩
  rejects other hother := by
    rcases List.mem_cons.mp hother with rfl | hold
    · exact ⟨finding, hresolve⟩
    · exact h.rejects other hold
  discards other := by
    obtain ⟨hdiscards, hopid⟩ := Store.discards_of_resolve hresolve
    rw [findings_report, Findings.discardsOf_append, h.discards]
    by_cases heq : other = opid
    · simp [Findings.discardsOf, hdiscards, hopid, heq, hrejected]
    · simp [Findings.discardsOf, hopid, heq, Ne.symm heq]
  skips map src attach hfinding := by
    rcases List.mem_append.mp hfinding with hold | hnew
    · exact h.skips map src attach hold
    · rw [← List.mem_singleton.mp hnew] at hresolve
      exact absurd (Store.discards_of_resolve hresolve).1 (by simp [Finding.discardsSpan])

end Recorded

/-- The child of the row is attached under `parent`, or the attachment was refused and found. -/
def Settled (tree : CallTree) (parent : OpId) (row : MapRow) : Prop :=
  row.src ∈ tree.opids ∧ parent ∈ tree.opids ∧
    (tree.Attaches parent row.src ∨ .cycleSkipped row.id row.src parent ∈ tree.findings)

/-- The row was followed while `opid` was expanded. -/
def Handled (tree : CallTree) (rejected : List OpId) (opid : OpId) (row : MapRow) : Prop :=
  row.src ∈ rejected ∨ tree.Settled row.clr row ∨ tree.Settled opid row

theorem Settled.mono {tree grown : CallTree} (hextends : tree.Extends grown) {parent : OpId}
    {row : MapRow} (h : tree.Settled parent row) : grown.Settled parent row :=
  ⟨hextends.mem_opids h.1, hextends.mem_opids h.2.1,
    h.2.2.imp hextends.attaches fun hfinding ↦ hextends.findings hfinding⟩

theorem Handled.mono {tree grown : CallTree} (hextends : tree.Extends grown)
    {rejected more : List OpId} (hrejected : rejected ⊆ more) {opid : OpId} {row : MapRow}
    (h : Handled tree rejected opid row) : Handled grown more opid row :=
  h.imp (fun hin ↦ hrejected hin) (Or.imp (Settled.mono hextends) (Settled.mono hextends))

namespace Growth

variable {store : Store} {root current : OpId} {growth grown : Growth} {row : MapRow}

theorem Followed.extends_tree (h : growth.Followed store current row grown) :
    growth.tree.Extends grown.tree ∧ growth.rejected ⊆ grown.rejected := by
  cases h with
  | passed _ hgrown =>
    subst hgrown
    exact ⟨.refl _, List.Subset.refl _⟩
  | attached _ _ _ _ _ hattached _ hgrown =>
    subst hgrown
    exact ⟨.of_attachment hattached, List.Subset.refl _⟩
  | refused _ _ _ hgrown =>
    subst hgrown
    exact ⟨.report _ _, List.Subset.refl _⟩
  | discarded _ _ _ hgrown =>
    subst hgrown
    exact ⟨.report _ _, List.subset_cons_self _ _⟩
  | entered _ _ _ _ _ _ hattached _ hgrown =>
    subst hgrown
    exact ⟨(Extends.addOperation _ _ _ _).trans (.of_attachment hattached), List.Subset.refl _⟩

theorem handled_of_settled (h : grown.tree.Settled (growth.parentFor current row) row) :
    Handled grown.tree grown.rejected current row := by
  rcases growth.parentFor_eq current row with heq | ⟨heq, -⟩
  · rw [heq] at h
    exact .inr (.inl h)
  · rw [heq] at h
    exact .inr (.inr h)

/-- A row is accounted for as soon as it is followed. -/
theorem Followed.handled (hcurrent : current ∈ growth.tree.opids)
    (h : growth.Followed store current row grown) :
    Handled grown.tree grown.rejected current row := by
  have hparent : growth.parentFor current row ∈ grown.tree.opids :=
    h.extends_tree.1.mem_opids (parentFor_mem hcurrent row)
  cases h with
  | passed hrejected hgrown =>
    subst hgrown
    exact .inl hrejected
  | @attached upper lower tree _ hupper hlower heq hchild hattached _ hgrown =>
    subst hgrown
    have hmem : upper ∈ tree.operations := hattached.operations ▸ hupper
    have hmem' : lower ∈ tree.operations := hattached.operations ▸ hlower
    have hlink : (upper.init, lower.init) ∈ tree.links := hattached.mem_links.mpr (.inr (.inl rfl))
    have hsrc : row.src ∈ tree.opids := hchild ▸ mem_opids_of_mem hmem'
    have hattaches : tree.Attaches (growth.parentFor current row) row.src :=
      ⟨upper, hmem, lower, hmem', heq, hchild, hlink⟩
    exact handled_of_settled ⟨hsrc, hparent, .inl hattaches⟩
  | refused _ hknown _ hgrown =>
    subst hgrown
    apply handled_of_settled
    exact ⟨hknown, hparent, .inr (List.mem_append_right _ (List.mem_singleton_self _))⟩
  | discarded _ _ _ hgrown =>
    subst hgrown
    exact .inl List.mem_cons_self
  | @entered upper span attributes tree _ _ hupper heq hresolve _ hattached _ hgrown =>
    subst hgrown
    have hspan : span.opid = row.src := Store.opid_of_resolve hresolve
    have hmem : upper ∈ tree.operations := by
      rw [hattached.operations, operations_addOperation]
      exact List.mem_append_left _ hupper
    have hmem' : Operation.placed growth.tree.nodes.length span (some upper.span.opid)
        (Annotations.ofAttributes row.src attributes) ∈ tree.operations := by
      rw [hattached.operations, operations_addOperation]
      exact List.mem_append_right _ (List.mem_singleton_self _)
    have hsrc : row.src ∈ tree.opids := hspan ▸ mem_opids_of_mem hmem'
    have hattaches : tree.Attaches (growth.parentFor current row) row.src :=
      ⟨upper, hmem, _, hmem', heq, hspan, hattached.mem_links.mpr (.inr (.inl rfl))⟩
    exact handled_of_settled ⟨hsrc, hparent, .inl hattaches⟩

/-- Following a row keeps what the tree records, and keeps it rooted. -/
theorem Followed.recorded (hrecorded : Recorded store root growth.tree growth.rejected)
    (hrooted : growth.tree.Rooted)
    (hbelow : ∀ span, store.resolve row.src = .ok (.complete span) → Below store root row.src)
    (h : growth.Followed store current row grown) :
    Recorded store root grown.tree grown.rejected ∧ grown.tree.Rooted := by
  cases h with
  | passed _ hgrown =>
    subst hgrown
    exact ⟨hrecorded, hrooted⟩
  | attached _ _ _ _ _ hattached hsound hgrown =>
    subst hgrown
    exact ⟨hrecorded.recorded_attachment hattached hsound, hrooted.rooted_attachment hattached⟩
  | refused _ _ hback hgrown =>
    subst hgrown
    refine ⟨hrecorded.recorded_report fun finding hfinding ↦ ?_, hrooted.rooted_report _⟩
    exact ⟨_, _, _, List.mem_singleton.mp hfinding, hback⟩
  | discarded hrejected _ hresolve hgrown =>
    subst hgrown
    exact ⟨hrecorded.recorded_discard hrejected hresolve, hrooted.rooted_report _⟩
  | @entered upper span attributes tree _ hnew hupper _ hresolve hattributes hattached hsound
      hgrown =>
    subst hgrown
    have hspan := Store.opid_of_resolve hresolve
    refine ⟨?_, hrooted.rooted_of_entered hupper hattached⟩
    rw [← hspan] at hresolve hattributes hnew hattached hbelow
    exact (hrecorded.recorded_addOperation (some upper.span.opid) hnew (hbelow span hresolve)
      hresolve hattributes).recorded_attachment hattached hsound

end Growth

/-! ## Runs -/

/-- What is true of a run whenever an operation is taken up for expansion. -/
structure Invariant (store : Store) (root : OpId) (tree : CallTree) (rejected : List OpId)
    (pending : List (Expansion store)) : Prop where
  recorded : Recorded store root tree rejected
  rooted : tree.Rooted
  waiting : ∀ expansion ∈ pending, expansion.opid ∈ tree.opids ∧
    ∃ loops, expansionOf store expansion.opid = .ok (expansion, loops)
  explored : ∀ opid ∈ tree.opids, ∃ expansion loops,
    expansionOf store opid = .ok (expansion, loops) ∧ loops ⊆ tree.findings ∧
      (expansion ∈ pending ∨ ∀ row ∈ expansion.links, Handled tree rejected opid row)

/-- What is true of a growth while the rows of one operation are followed: the rows that are done
are accounted for, and nothing of the tree before is lost. -/
structure Progress (store : Store) (root current : OpId) (tree : CallTree)
    (rejected : List OpId) (done : List MapRow) (growth : Growth) : Prop where
  recorded : Recorded store root growth.tree growth.rejected
  rooted : growth.tree.Rooted
  extends_tree : tree.Extends growth.tree
  rejected_subset : rejected ⊆ growth.rejected
  handled : ∀ row ∈ done, Handled growth.tree growth.rejected current row

section Runs

variable {store : Store} {root : OpId} {tree : CallTree} {rejected : List OpId}

/-- Before any row is followed nothing is to be accounted for. -/
theorem Progress.refl (hrecorded : Recorded store root tree rejected) (hrooted : tree.Rooted)
    (current : OpId) : Progress store root current tree rejected [] { tree, rejected } :=
  ⟨hrecorded, hrooted, .refl tree, List.Subset.refl _, by simp⟩

/-- Following one row more takes the progress to that row. -/
theorem Progress.step {expansion : Expansion store} {loops : Findings} {done : List MapRow}
    {row : MapRow} {growth next : Growth}
    (hprogress : Progress store root expansion.opid tree rejected done growth)
    (hcurrent : expansion.opid ∈ tree.opids)
    (hexpansion : expansionOf store expansion.opid = .ok (expansion, loops))
    (hrow : row ∈ expansion.links)
    (hnext : growth.follow store expansion.opid row = .ok next) :
    growth.Followed store expansion.opid row next ∧
      Progress store root expansion.opid tree rejected (done ++ [row]) next := by
  have hin := hprogress.extends_tree.mem_opids hcurrent
  have hfollowed := Growth.followed_of_follow hprogress.recorded.sound hin hnext
  obtain ⟨hextends, hrejected⟩ := hfollowed.extends_tree
  obtain ⟨hrecorded', hrooted'⟩ := hfollowed.recorded hprogress.recorded hprogress.rooted
    fun span hresolve ↦ .child (hprogress.recorded.below _ hin) hexpansion hrow hresolve
  refine ⟨hfollowed, hrecorded', hrooted', hprogress.extends_tree.trans hextends,
    List.Subset.trans hprogress.rejected_subset hrejected, fun other hother ↦ ?_⟩
  rcases List.mem_append.mp hother with hdone | hlast
  · exact (hprogress.handled other hdone).mono hextends hrejected
  · rw [List.mem_singleton.mp hlast]
    exact hfollowed.handled hin

/-- What holds once rows of an operation are followed: they are accounted for, and so is whatever
each of them keeps. -/
theorem Invariant.follow_induction {motive : List MapRow → Growth → Prop} {next : Expansion store}
    {pending : List (Expansion store)} {rows : List MapRow} {grown : Growth}
    (h : Invariant store root tree rejected (next :: pending)) (hrows : rows ⊆ next.links)
    (hstep : ∀ done row growth later, row ∈ next.links →
      Progress store root next.opid tree rejected done growth →
      growth.Followed store next.opid row later → motive done growth →
      motive (done ++ [row]) later)
    (hstart : motive [] { tree, rejected })
    (hgrown : Growth.followAll store next.opid { tree, rejected } rows = .ok grown) :
    Progress store root next.opid tree rejected rows grown ∧ motive rows grown := by
  obtain ⟨hcurrent, loops, hexpansion⟩ := h.waiting next List.mem_cons_self
  refine Growth.followAll_induction (motive := fun done growth ↦
    Progress store root next.opid tree rejected done growth ∧ motive done growth) ?_
    ⟨.refl h.recorded h.rooted next.opid, hstart⟩ hgrown
  intro done row growth later hrow hboth hlater
  obtain ⟨hfollowed, hprogress⟩ := hboth.1.step hcurrent hexpansion (hrows hrow) hlater
  exact ⟨hprogress, hstep done row growth later (hrows hrow) hboth.1 hfollowed hboth.2⟩

theorem Invariant.progress_of_followAll {next : Expansion store}
    {pending : List (Expansion store)} {rows : List MapRow} {grown : Growth}
    (h : Invariant store root tree rejected (next :: pending)) (hrows : rows ⊆ next.links)
    (hgrown : Growth.followAll store next.opid { tree, rejected } rows = .ok grown) :
    Progress store root next.opid tree rejected rows grown :=
  (h.follow_induction (motive := fun _ _ ↦ True) hrows (fun _ _ _ _ _ _ _ _ ↦ trivial) trivial
    hgrown).1

/-- The expansion of one operation keeps the invariant. -/
theorem invariant_step {next : Expansion store} {pending waiting : List (Expansion store)}
    {grown : Growth} {prepared : CallTree}
    (h : Invariant store root tree rejected (next :: pending))
    (hgrown : Growth.followAll store next.opid { tree, rejected } next.links = .ok grown)
    (hprepared : prepare store grown.tree pending grown.entered = .ok (prepared, waiting)) :
    Invariant store root prepared grown.rejected waiting := by
  have hprogress := h.progress_of_followAll (List.Subset.refl _) hgrown
  obtain ⟨more, hopids, hentered, -⟩ := Growth.opids_of_followAll hgrown
  obtain ⟨expansions, findings, rfl, rfl, hmap, hexpansions, hfindings⟩ := of_prepare hprepared
  rw [hentered, List.nil_append] at hmap
  have hextends := hprogress.extends_tree.trans (.report grown.tree findings)
  have hin {expansion : Expansion store} (hmem : expansion ∈ expansions) :
      expansion.opid ∈ (grown.tree.report findings).opids := by
    rw [opids_report, hopids, ← hmap]
    exact List.mem_append_right _ (List.mem_map_of_mem hmem)
  refine ⟨?_, hprogress.rooted.rooted_report findings, ?_, ?_⟩
  · refine hprogress.recorded.recorded_report fun finding hfinding ↦ ?_
    obtain ⟨map, opid, heq⟩ := hfindings finding hfinding
    exact ⟨map, opid, opid, heq, .refl⟩
  · intro expansion hmem
    rcases List.mem_append.mp hmem with hnew | hold
    · exact ⟨hin hnew, (hexpansions expansion hnew).imp fun _ ↦ And.left⟩
    · obtain ⟨hopid, hasked⟩ := h.waiting expansion (List.mem_cons_of_mem _ hold)
      exact ⟨hextends.mem_opids hopid, hasked⟩
  · intro opid hopid
    rw [opids_report, hopids, List.mem_append] at hopid
    rcases hopid with hold | hnew
    · obtain ⟨expansion, loops', hasked, hloops, hdone⟩ := h.explored opid hold
      refine ⟨expansion, loops', hasked, List.Subset.trans hloops hextends.findings, ?_⟩
      rcases hdone with hwaits | hdone
      · rcases List.mem_cons.mp hwaits with rfl | hlater
        · -- the operation that was just expanded
          obtain ⟨_, _, -, -, rfl, -⟩ := of_expansionOf hasked
          exact .inr fun row hrow ↦
            (hprogress.handled row hrow).mono (.report _ _) (List.Subset.refl _)
        · exact .inl (List.mem_append_right _ hlater)
      · exact .inr fun row hrow ↦ (hdone row hrow).mono hextends hprogress.rejected_subset
    · rw [← hmap] at hnew
      obtain ⟨expansion, hmem, rfl⟩ := List.mem_map.mp hnew
      obtain ⟨loops', hasked, hloops⟩ := hexpansions expansion hmem
      exact ⟨expansion, loops', hasked, List.Subset.trans hloops (List.subset_append_right _ _),
        .inl (List.mem_append_left _ hmem)⟩

theorem invariant_start {expansion : Expansion store} {loops : Findings} {span : Span}
    {attributes : List AttributeRow} (hattributes : store.attributesOf root = .ok attributes)
    (hexpansion : expansionOf store root = .ok (expansion, loops))
    (hresolve : store.resolve root = .ok (.complete span)) :
    Invariant store root (start root loops span attributes) [] [expansion] := by
  obtain ⟨_, _, -, -, hopid, -⟩ := of_expansionOf hexpansion
  have hspan := Store.opid_of_resolve hresolve
  have hempty : Recorded store root { root, findings := loops } [] := by
    have hloops (finding : Finding) (hfinding : finding ∈ loops) :=
      eq_cycleSkipped_of_mem_loops hexpansion hfinding
    refine ⟨rfl, sound_of_operations_eq_nil rfl rfl rfl, by simp [opids], by simp, by simp,
      by simp, fun opid ↦ ?_, fun map src attach hfinding ↦ ?_⟩
    · rw [if_neg List.not_mem_nil]
      refine Findings.discardsOf_eq_zero fun finding hfinding ↦ ?_
      obtain ⟨map, rfl⟩ := hloops finding hfinding
      rfl
    · obtain ⟨map', heq⟩ := hloops _ hfinding
      cases heq
      exact .refl
  have hnew : span.opid ∉ ({ root, findings := loops } : CallTree).opids := by simp [opids]
  have hrecorded := hempty.recorded_addOperation none hnew
    (hspan ▸ .root) (hspan.symm ▸ hresolve) (hspan.symm ▸ hattributes)
  rw [hspan] at hrecorded
  refine ⟨hrecorded, ⟨⟨_, rfl, hspan, rfl⟩, ?_⟩, ?_, ?_⟩
  · intro place operation hplace hget
    have hlt := (List.getElem?_eq_some_iff.mp hget).1
    simp [start] at hlt
    omega
  · intro other hother
    rw [List.mem_singleton.mp hother, hopid]
    exact ⟨by simp [start, hspan], loops, hexpansion⟩
  · intro other hother
    have heq : other = root := by
      rw [start, opids_addOperation, hspan] at hother
      exact List.mem_singleton.mp hother
    subst heq
    exact ⟨expansion, loops, hexpansion, List.subset_append_left _ _,
      .inl List.mem_cons_self⟩

/-- A tree that is built satisfies the invariant, and no operation waits. -/
theorem invariant_of_build (h : build store root = .ok tree) :
    ∃ rejected, Invariant store root tree rejected [] := by
  obtain ⟨attributes, expansion, loops, span, hattributes, hexpansion, hresolve, hrun⟩ :=
    of_build h
  exact expandAll_induction (motive := Invariant store root)
    (fun _ _ _ _ _ _ _ ↦ invariant_step) (invariant_start hattributes hexpansion hresolve) hrun

/-- What holds of every tree that is built, if it holds of each tree with one operation and is kept
by reports and by each row that is followed. -/
theorem build_induction {motive : CallTree → Prop}
    (hstart : ∀ loops span attributes, motive (start root loops span attributes))
    (hreport : ∀ tree findings, motive tree → motive (tree.report findings))
    (hfollow : ∀ (expansion : Expansion store) (loops : Findings) (growth grown : Growth)
      (row : MapRow), expansionOf store expansion.opid = .ok (expansion, loops) →
      row ∈ expansion.links → growth.tree.Sound → expansion.opid ∈ growth.tree.opids →
      growth.Followed store expansion.opid row grown → motive growth.tree → motive grown.tree)
    (h : build store root = .ok tree) : motive tree := by
  obtain ⟨attributes, expansion, loops, span, hattributes, hexpansion, hresolve, hrun⟩ :=
    of_build h
  -- the invariant goes along, since it is what makes each tree on the way sound
  have hfinal : ∃ rejected, Invariant store root tree rejected [] ∧ motive tree := by
    refine expandAll_induction (motive := fun tree rejected pending ↦
        Invariant store root tree rejected pending ∧ motive tree) ?_
      ⟨invariant_start hattributes hexpansion hresolve, hstart loops span attributes⟩ hrun
    rintro tree rejected next pending grown prepared waiting ⟨hinvariant, hmotive⟩ hgrown hprepared
    obtain ⟨hcurrent, loops, hexpansion⟩ := hinvariant.waiting next List.mem_cons_self
    have hrows := hinvariant.follow_induction (motive := fun _ growth ↦ motive growth.tree)
      (List.Subset.refl _) (fun _ row growth later hrow hprogress hfollowed ↦
        hfollow next loops growth later row hexpansion hrow hprogress.recorded.sound
          (hprogress.extends_tree.mem_opids hcurrent) hfollowed) hmotive hgrown
    obtain ⟨expansions, findings, -, hreported, -⟩ := of_prepare hprepared
    exact ⟨invariant_step hinvariant hgrown hprepared, hreported ▸ hreport _ findings hrows.2⟩
  obtain ⟨rejected, -, hmotive⟩ := hfinal
  exact hmotive

end Runs

end CallTree

end OpTrace

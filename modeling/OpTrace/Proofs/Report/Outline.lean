import OpTrace.Proofs.CallTree.Bounded
import OpTrace.Proofs.CallTree.Children
import OpTrace.Proofs.CallTree.Flow
import OpTrace.Report.Text

/-!
# The outline of a call tree

The outline follows a tree from its root without looking at what it has passed already. A trail is
one way of doing so: the operations from the root to some operation, each attached under the one in
front of it. No operation comes twice on a trail of a tree that is built, since nothing is attached
below itself, so there are finitely many trails and none is longer than there are operations.

Each trail gives one operation line, as deep as the trail is long, with the lines of intervals below
it. The trails come in depth-first order: a trail stands in front of those that go on from it, and
where two trails part, the one to the earlier child comes first. `Walk` is the same recursion without
a bound on its depth. It ends, and with the lines of the outline.
-/

namespace OpTrace

open Relation

namespace CallTree

def header (depth : Nat) (operation : Operation) : String :=
  blanks (2 * depth) ++
    s!"{operation.span.fnTag} [{operation.span.opid}] {operation.span.duration} us"

def intervalLines (tree : CallTree) (depth : Nat) (operation : Operation) : List String :=
  (operation.intervals.filterMap tree.node?).map fun node ↦
    blanks (2 * depth + 2) ++ s!"- {node.label} {node.duration} us"

/-- A trail from an operation on: each operation is attached under the one in front of it. -/
inductive IsTrail (tree : CallTree) : OpId → List OpId → Prop where
  | stop {opid : OpId} : IsTrail tree opid [opid]
  | step {opid child : OpId} {trail : List OpId} :
    child ∈ tree.childrenOf opid → IsTrail tree child trail → IsTrail tree opid (opid :: trail)

/-- The order of trails: depth first, and by the order of the children. -/
inductive Before (tree : CallTree) : List OpId → List OpId → Prop where
  | stop {opid child : OpId} {rest : List OpId} : Before tree [opid] (opid :: child :: rest)
  | part {opid child other : OpId} {rest others : List OpId} :
    [child, other].Sublist (tree.childrenOf opid) →
      Before tree (opid :: child :: rest) (opid :: other :: others)
  | step {opid : OpId} {trail other : List OpId} :
    Before tree trail other → Before tree (opid :: trail) (opid :: other)

mutual

/-- Following the tree from an operation at some depth ends, and gives these lines. -/
inductive Walk (tree : CallTree) : Nat → OpId → List String → Prop where
  | visit {depth : Nat} {opid : OpId} {lines : List String} :
    WalkAll tree (depth + 1) (tree.childrenOf opid) lines →
      Walk tree depth opid (tree.headlines depth opid ++ lines)

/-- Following the tree from operations at some depth, one after the other. -/
inductive WalkAll (tree : CallTree) : Nat → List OpId → List String → Prop where
  | nil {depth : Nat} : WalkAll tree depth [] []
  | cons {depth : Nat} {opid : OpId} {opids : List OpId} {lines others : List String} :
    Walk tree depth opid lines → WalkAll tree depth opids others →
      WalkAll tree depth (opid :: opids) (lines ++ others)

end

/-- The lines that the last operation of a trail gives. -/
def linesAt (tree : CallTree) (depth : Nat) (trail : List OpId) : List String :=
  match trail.getLast? with
  | some opid => tree.headlines (depth + (trail.length - 1)) opid
  | none => []

/-- The trails from an operation on that have at most `levels` operations. -/
def trailsFrom (tree : CallTree) : Nat → OpId → List (List OpId)
  | 0, _ => []
  | levels + 1, opid =>
    [opid] :: (tree.childrenOf opid).flatMap fun child ↦
      (trailsFrom tree levels child).map (opid :: ·)

variable {tree : CallTree} {opid : OpId} {trail other : List OpId} {levels depth : Nat}

theorem IsTrail.exists_eq_cons (h : tree.IsTrail opid trail) : ∃ rest, trail = opid :: rest := by
  cases h with
  | stop => exact ⟨[], rfl⟩
  | step _ _ => exact ⟨_, rfl⟩

theorem mem_trailsFrom :
    trail ∈ tree.trailsFrom levels opid ↔ tree.IsTrail opid trail ∧ trail.length ≤ levels := by
  induction levels generalizing opid trail with
  | zero =>
    simp only [trailsFrom, List.not_mem_nil, false_iff, not_and, Nat.le_zero]
    intro h hnil
    obtain ⟨rest, rfl⟩ := h.exists_eq_cons
    exact absurd hnil (Nat.succ_ne_zero _)
  | succ levels ih =>
    simp only [trailsFrom, List.mem_cons, List.mem_flatMap, List.mem_map, ih]
    constructor
    · rintro (rfl | ⟨child, hchild, rest, ⟨hrest, hlength⟩, rfl⟩)
      · exact ⟨.stop, Nat.succ_le_succ (Nat.zero_le _)⟩
      · exact ⟨.step hchild hrest, Nat.succ_le_succ hlength⟩
    · rintro ⟨h, hlength⟩
      cases h with
      | stop => exact .inl rfl
      | step hchild hrest =>
        exact .inr ⟨_, hchild, _, ⟨hrest, Nat.le_of_succ_le_succ hlength⟩, rfl⟩

/-- The trails are listed in their order. -/
theorem pairwise_trailsFrom (tree : CallTree) (levels : Nat) (opid : OpId) :
    (tree.trailsFrom levels opid).Pairwise tree.Before := by
  induction levels generalizing opid with
  | zero => exact .nil
  | succ levels ih =>
    rw [trailsFrom, List.pairwise_cons, List.pairwise_flatMap]
    refine ⟨?_, fun child _ ↦ ?_, List.pairwise_iff_forall_sublist.mpr ?_⟩
    · intro trail htrail
      obtain ⟨child, -, hmem⟩ := List.mem_flatMap.mp htrail
      obtain ⟨rest, hrest, rfl⟩ := List.mem_map.mp hmem
      obtain ⟨others, rfl⟩ := (mem_trailsFrom.mp hrest).1.exists_eq_cons
      exact .stop
    · exact List.Pairwise.map _ (fun _ _ ↦ .step) (ih child)
    · intro child other hchildren trail htrail trail' htrail'
      obtain ⟨rest, hrest, rfl⟩ := List.mem_map.mp htrail
      obtain ⟨rest', hrest', rfl⟩ := List.mem_map.mp htrail'
      obtain ⟨_, rfl⟩ := (mem_trailsFrom.mp hrest).1.exists_eq_cons
      obtain ⟨_, rfl⟩ := (mem_trailsFrom.mp hrest').1.exists_eq_cons
      exact .part hchildren

/-- Trails that come one before the other differ, if no child is listed twice. -/
theorem Before.ne (h : tree.Before trail other)
    (hnodup : ∀ parent, (tree.childrenOf parent).Nodup) : trail ≠ other := by
  induction h with
  | stop => simp
  | part hchildren =>
    rintro heq
    obtain ⟨rfl, -⟩ := List.cons.inj (List.cons.inj heq).2
    exact absurd ((hnodup _).sublist hchildren) (by simp)
  | step _ ih => exact fun heq ↦ ih (List.cons.inj heq).2

theorem linesAt_cons (hne : trail ≠ []) :
    tree.linesAt depth (opid :: trail) = tree.linesAt (depth + 1) trail := by
  obtain ⟨first, rest, rfl⟩ := List.exists_cons_of_ne_nil hne
  simp only [linesAt, List.getLast?_cons_cons, List.length_cons, Nat.add_sub_cancel]
  rw [Nat.add_assoc, Nat.add_comm 1]

/-- The outline lists the lines of the trails. -/
theorem outlineFrom_eq (tree : CallTree) (levels depth : Nat) (opid : OpId) :
    tree.outlineFrom levels depth opid =
      (tree.trailsFrom levels opid).flatMap (tree.linesAt depth) := by
  induction levels generalizing depth opid with
  | zero => rfl
  | succ levels ih =>
    rw [outlineFrom, trailsFrom, List.flatMap_cons, List.flatMap_assoc]
    congr 1
    refine List.flatMap_congr fun child _ ↦ ?_
    rw [ih, List.flatMap_map]
    refine List.flatMap_congr fun trail htrail ↦ ?_
    obtain ⟨_, rfl⟩ := (mem_trailsFrom.mp htrail).1.exists_eq_cons
    exact (linesAt_cons (List.cons_ne_nil _ _)).symm

theorem headlines_of_operation? {operation : Operation}
    (h : tree.operation? opid = some operation) (depth : Nat) :
    tree.headlines depth opid = header depth operation :: tree.intervalLines depth operation := by
  rw [headlines, h]
  rfl

theorem walkAll_flatMap {opids : List OpId} {lines : OpId → List String}
    (h : ∀ opid ∈ opids, tree.Walk depth opid (lines opid)) :
    tree.WalkAll depth opids (opids.flatMap lines) := by
  induction opids with
  | nil => exact .nil
  | cons opid opids ih =>
    obtain ⟨hfirst, hothers⟩ := List.forall_mem_cons.mp h
    exact .cons hfirst (ih hothers)

/-- If no trail is longer than `levels`, the bound on the outline cuts nothing off. -/
theorem walk_outlineFrom (h : ∀ trail, tree.IsTrail opid trail → trail.length ≤ levels) :
    tree.Walk depth opid (tree.outlineFrom levels depth opid) := by
  induction levels generalizing depth opid with
  | zero => exact absurd (h [opid] .stop) (Nat.not_succ_le_zero 0)
  | succ levels ih =>
    refine .visit (walkAll_flatMap fun child hchild ↦ ih fun trail htrail ↦ ?_)
    exact Nat.le_of_succ_le_succ (h (opid :: trail) (.step hchild htrail))

namespace Sound

/-- Every operation on a trail is the first one or below it. -/
theorem path_of_isTrail (h : tree.Sound) (htrail : tree.IsTrail opid trail) :
    ∀ other ∈ trail, ReflTransGen tree.Attaches opid other := by
  induction htrail with
  | stop => simp [ReflTransGen.refl]
  | step hchild _ ih =>
    refine List.forall_mem_cons.mpr ⟨.refl, fun other hother ↦ ?_⟩
    exact .head (h.mem_childrenOf.mp hchild) (ih other hother)

theorem nodup_of_isTrail (h : tree.Sound) (htrail : tree.IsTrail opid trail) : trail.Nodup := by
  induction htrail with
  | stop => exact List.nodup_singleton _
  | step hchild hrest ih =>
    refine List.nodup_cons.mpr ⟨fun hagain ↦ ?_, ih⟩
    exact h.acyclic _ (.head' (h.mem_childrenOf.mp hchild) (h.path_of_isTrail hrest _ hagain))

theorem subset_of_isTrail (h : tree.Sound) (hopid : opid ∈ tree.opids)
    (htrail : tree.IsTrail opid trail) : trail ⊆ tree.opids := by
  intro other hother
  rcases (h.path_of_isTrail htrail other hother).cases_tail with rfl | ⟨_, -, hattaches⟩
  · exact hopid
  · obtain ⟨_, -, lower, hlower, -, rfl, -⟩ := hattaches
    exact mem_opids_of_mem hlower

/-- No trail is longer than there are operations. -/
theorem length_le_of_isTrail (h : tree.Sound) (hopid : opid ∈ tree.opids)
    (htrail : tree.IsTrail opid trail) : trail.length ≤ tree.operations.length :=
  calc
    trail.length ≤ tree.opids.length :=
      ((h.nodup_of_isTrail htrail).subperm (h.subset_of_isTrail hopid htrail)).length_le
    _ = tree.operations.length := List.length_map _

/-- The lines of a trail are those of the operation that it leads to. -/
theorem exists_linesAt_eq (h : tree.Sound) (hopid : opid ∈ tree.opids)
    (htrail : tree.IsTrail opid trail) : ∃ operation ∈ tree.operations,
      trail.getLast? = some operation.span.opid ∧ tree.linesAt 0 trail =
        header (trail.length - 1) operation :: tree.intervalLines (trail.length - 1) operation := by
  obtain ⟨rest, rfl⟩ := htrail.exists_eq_cons
  have hlast := List.getLast?_eq_some_getLast (List.cons_ne_nil opid rest)
  obtain ⟨operation, hmem, hoperation⟩ :=
    exists_of_mem_opids (h.subset_of_isTrail hopid htrail (List.getLast_mem _))
  rw [← hoperation] at hlast
  refine ⟨operation, hmem, hlast, ?_⟩
  rw [linesAt, hlast, Nat.zero_add]
  exact headlines_of_operation? (h.operation?_of_mem hmem) _

/-- A trail leads to each operation below another one. -/
theorem exists_isTrail (h : tree.Sound) {last : OpId}
    (hpath : ReflTransGen tree.Attaches opid last) :
    ∃ trail, tree.IsTrail opid trail ∧ trail.getLast? = some last := by
  induction hpath using ReflTransGen.head_induction_on with
  | refl => exact ⟨[last], .stop, rfl⟩
  | head hattaches _ ih =>
    obtain ⟨trail, htrail, hlast⟩ := ih
    refine ⟨_, .step (h.mem_childrenOf.mpr hattaches) htrail, ?_⟩
    rw [List.getLast?_cons, hlast]
    rfl

end Sound

/-- The outline, and with it the text that is printed, is made of the lines of the trails from the
root, in their order. -/
structure Outlined (tree : CallTree) (trails : List (List OpId)) : Prop where
  walks : tree.Walk 0 tree.root tree.outline
  mem_iff : ∀ trail, trail ∈ trails ↔ tree.IsTrail tree.root trail
  nodup : trails.Nodup
  ordered : trails.Pairwise tree.Before
  length_le : ∀ trail ∈ trails, trail.length ≤ tree.operations.length
  reaches : ∀ operation ∈ tree.operations, ∃ trail ∈ trails,
    trail.getLast? = some operation.span.opid
  lines : tree.outline = trails.flatMap (tree.linesAt 0)
  headed : ∀ trail ∈ trails, ∃ operation ∈ tree.operations,
    trail.getLast? = some operation.span.opid ∧ tree.linesAt 0 trail =
      header (trail.length - 1) operation :: tree.intervalLines (trail.length - 1) operation
  printed : tree.toText = String.join ((trails.flatMap (tree.linesAt 0) ++ [rule,
    s!"{tree.operations.length} operation(s), {tree.nodes.length} node(s), " ++
      s!"{tree.edges.length} edge(s)"]).map (· ++ "\n"))

/-- A sound tree without repeated children, whose operations are all below the root, is outlined by
its trails. -/
theorem Sound.outlined (h : tree.Sound) (hnodup : ∀ parent, (tree.childrenOf parent).Nodup)
    (hroot : tree.root ∈ tree.opids)
    (hbelow : ∀ opid ∈ tree.opids, ReflTransGen tree.Attaches tree.root opid) :
    tree.Outlined (tree.trailsFrom tree.operations.length tree.root) where
  walks := walk_outlineFrom fun _ ↦ h.length_le_of_isTrail hroot
  mem_iff trail := mem_trailsFrom.trans (and_iff_left_of_imp (h.length_le_of_isTrail hroot))
  nodup := (tree.pairwise_trailsFrom _ _).imp fun hbefore ↦ hbefore.ne hnodup
  ordered := tree.pairwise_trailsFrom _ _
  length_le trail htrail := (mem_trailsFrom.mp htrail).2
  reaches operation hmem := by
    obtain ⟨trail, htrail, hlast⟩ := h.exists_isTrail (hbelow _ (mem_opids_of_mem hmem))
    exact ⟨trail, mem_trailsFrom.mpr ⟨htrail, h.length_le_of_isTrail hroot htrail⟩, hlast⟩
  lines := tree.outlineFrom_eq _ 0 _
  headed trail htrail := h.exists_linesAt_eq hroot (mem_trailsFrom.mp htrail).1
  printed := by
    rw [toText, outline, outlineFrom_eq]
    rfl

/-- The outline of every tree that is built ends. It has a line for each trail from the root, so at
least one for each operation, in depth-first order. The text that is printed is this outline, with
the totals below it. -/
theorem outlined_of_build {store : Store} {root : OpId} (h : build store root = .ok tree) :
    ∃ trails, tree.Outlined trails := by
  obtain ⟨rejected, made, hpasses⟩ := exists_passes_of_build h
  have hsound := hpasses.invariant.recorded.sound
  have hrooted := hpasses.invariant.rooted
  refine ⟨_, hsound.outlined (fun parent ↦ ?_) hrooted.root_mem fun opid hopid ↦ ?_⟩
  · rw [hpasses.ordered parent]
    exact Trace.nodup_firstAppearances [] _
  · obtain ⟨operation, hmem, rfl⟩ := exists_of_mem_opids hopid
    obtain ⟨place, hget⟩ := List.mem_iff_getElem?.mp hmem
    exact (hrooted.path hsound hget).2

end CallTree

namespace Forked

open Sample

/-- Operation 4 is a child of 2 and of 3, the two children of the root, and names the root as its
child. -/
def trace : Trace := .ofRows
  [stateRow 1 0 1 .init, stateRow 2 90 1 .finish, stateRow 3 10 2 .init,
    stateRow 4 20 2 .finish, stateRow 5 30 3 .init, stateRow 6 40 3 .finish,
    stateRow 7 50 4 .init, stateRow 8 60 4 .finish]
  [] [mapRow 1 3 1 1, mapRow 2 2 1 1, mapRow 3 4 2 2,
    mapRow 4 4 3 3, mapRow 5 1 4 4]

theorem resolve_root : trace.toStore.resolve 1 = .ok (.complete
    { opid := 1, fnTag := "request", smTag := none, start := 0, finish := 90 }) := by
  cbv

theorem exists_tree : ∃ tree, CallTree.build trace.toStore 1 = .ok tree ∧
    tree.outline = ["request [1] 90 us", "  request [3] 10 us", "    request [4] 10 us",
      "  request [2] 10 us", "    request [4] 10 us"] ∧
    tree.operations.length = 4 ∧ tree.nodes.length = 8 ∧ tree.edges.length = 12 := by
  apply CallTree.exists_build_of_treeWithin 4 resolve_root rfl
  cbv

end Forked

/-- The text of the forked trace lists operation 4 twice, once for each trail to it. -/
theorem CallTree.outlined_of_forked : ∃ tree, build Forked.trace.toStore 1 = .ok tree ∧
    (∃ trails, tree.Outlined trails) ∧
    tree.toText = String.join (["request [1] 90 us", "  request [3] 10 us",
      "    request [4] 10 us", "  request [2] 10 us", "    request [4] 10 us", rule,
      "4 operation(s), 8 node(s), 12 edge(s)"].map (· ++ "\n")) := by
  obtain ⟨tree, htree, houtline, hoperations, hnodes, hedges⟩ := Forked.exists_tree
  obtain ⟨trails, htrails⟩ := outlined_of_build htree
  refine ⟨tree, htree, ⟨trails, htrails⟩, ?_⟩
  rw [htrails.printed, ← htrails.lines, houtline, hoperations, hnodes, hedges]
  rfl

end OpTrace

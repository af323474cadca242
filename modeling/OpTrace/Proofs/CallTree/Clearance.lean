import OpTrace.Proofs.CallTree.Bounded
import OpTrace.Proofs.CallTree.Children

/-!
# Where children hang

Each attachment was made when a map row of the child was followed. The parent is the clearance
operation of the row if that was in the tree at this moment, and else it is the destination. So a
clearance operation is passed over in three cases only: it never enters the tree, it is the child
itself, which enters with the row, or it enters later. In the last case the child stays where it
is, since no attachment is undone.
-/

namespace OpTrace

namespace CallTree

/-- The run below `root` follows a row, and takes one tree to the other by that. -/
inductive Follows (store : Store) (root : OpId) (row : MapRow) : CallTree → CallTree → Prop
  | step {tree : CallTree} {rejected : List OpId} {next : Expansion store}
    {pending : List (Expansion store)} {made : List (OpId × OpId)} {done rest : List MapRow}
    {before after : Growth} (hpasses : Passes store root tree rejected (next :: pending) made)
    (hrows : next.links = done ++ row :: rest)
    (hbefore : Growth.followAll store next.opid { tree, rejected } done = .ok before)
    (hafter : before.follow store next.opid row = .ok after) :
    Follows store root row before.tree after.tree

/-- Following a row attaches a child under a parent for the first time. -/
structure Makes (store : Store) (root : OpId) (row : MapRow) (before after : CallTree)
    (parent child : OpId) : Prop where
  follows : Follows store root row before after
  missing : ¬ before.Attaches parent child
  attaches : after.Attaches parent child

namespace Growth

variable {store : Store} {current : OpId} {growth grown : Growth} {row : MapRow}

/-- At most the child of the row is attached, under the operation that is chosen for it. -/
theorem Followed.attaches (hsound : growth.tree.Sound)
    (h : growth.Followed store current row grown) {parent child : OpId}
    (hattaches : grown.tree.Attaches parent child) :
    growth.tree.Attaches parent child ∨
      parent = growth.parentFor current row ∧ child = row.src := by
  cases h with
  | passed _ hgrown =>
    subst hgrown
    exact .inl hattaches
  | attached _ hupper hlower hparent hchild hattached _ hgrown =>
    subst hgrown
    rw [← hparent, ← hchild]
    exact hsound.attaches_of_attachment hupper hlower hattached hattaches
  | refused _ _ _ hgrown =>
    subst hgrown
    exact .inl hattaches
  | discarded _ _ _ hgrown =>
    subst hgrown
    exact .inl hattaches
  | @entered upper span attributes tree _ hnew hupper hparent hresolve _ hattached _ hgrown =>
    subst hgrown
    have hspan : span.opid = row.src := Store.opid_of_resolve hresolve
    have hadded : (growth.tree.addOperation span (some upper.span.opid)
        (Annotations.ofAttributes row.src attributes)).Sound :=
      hsound.sound_addOperation (hspan ▸ hnew)
    rcases hadded.attaches_of_attachment (by simp [hupper]) (by simp) hattached hattaches with
      hold | hpair
    · exact .inl (hsound.attaches_of_attaches_addOperation hold)
    · exact .inr ⟨hpair.1.trans hparent, hpair.2.trans hspan⟩

end Growth

section Runs

variable {store : Store} {maps : List MapRow} {root : OpId} {tree before after : CallTree}
  {row : MapRow} {parent child : OpId}

/-- At most the child of a row enters the tree when the row is followed. -/
theorem Follows.mem_opids (h : Follows store root row before after) {opid : OpId}
    (hopid : opid ∈ after.opids) : opid ∈ before.opids ∨ opid = row.src := by
  obtain ⟨-, -, -, hafter⟩ := h
  obtain ⟨more, hopids, -, hmore⟩ := Growth.opids_of_follow hafter
  rw [hopids, List.mem_append] at hopid
  exact hopid.imp_right fun hnew ↦ (hmore opid hnew).1

/-- A clearance operation that is passed over never enters a tree, or it is the child, or it enters
after the row was followed. -/
theorem Follows.cases_of_notMem (h : Follows store root row before after)
    (hclr : row.clr ∉ before.opids) (tree : CallTree) :
    row.clr ∉ tree.opids ∨ row.clr = row.src ∨ row.clr ∈ tree.opids ∧ row.clr ∉ after.opids := by
  by_cases hafter : row.clr ∈ after.opids
  · exact .inr (.inl ((h.mem_opids hafter).resolve_left hclr))
  · by_cases hlast : row.clr ∈ tree.opids
    · exact .inr (.inr ⟨hlast, hafter⟩)
    · exact .inl hlast

/-- What is attached is the child of the row. Its parent is in the tree, and it is the clearance
operation of the row if that is in the tree. -/
theorem Makes.decided (hserves : store.Serves maps)
    (h : Makes store root row before after parent child) :
    row ∈ maps ∧ row.src = child ∧ parent ∈ before.opids ∧
      parent = if row.clr ∈ before.opids then row.clr else row.dst := by
  obtain ⟨hfollows, hmissing, hattaches⟩ := h
  obtain @⟨tree, rejected, next, pending, made, done, rest, before, after, hpasses, hrows, hbefore,
    hafter⟩ := hfollows
  obtain ⟨hcurrent, loops, hexpansion⟩ := hpasses.invariant.waiting next List.mem_cons_self
  have hprogress := hpasses.progress_of_followAll hrows hbefore
  have hlink : row ∈ next.links := by
    rw [hrows]
    exact List.mem_append_right done List.mem_cons_self
  have hfollowed := (hprogress.step hcurrent hexpansion hlink hafter).1
  have hin : next.opid ∈ before.tree.opids := hprogress.extends_tree.mem_opids hcurrent
  obtain ⟨hmaps, hsides⟩ := mem_of_mem_links hserves hexpansion hlink
  obtain ⟨rfl, rfl⟩ :=
    (hfollowed.attaches hprogress.recorded.sound hattaches).resolve_left hmissing
  refine ⟨hmaps, rfl, Growth.parentFor_mem hin row, ?_⟩
  by_cases hclr : row.clr ∈ before.tree.opids
  · simp [Growth.parentFor, contains, hclr]
  · -- the row is followed from its destination, since the operation that is expanded is known
    have hdst : row.dst = next.opid := hsides.resolve_right fun heq ↦ hclr (heq ▸ hin)
    simp [Growth.parentFor, contains, hclr, hdst]

/-- Each attachment that a run comes by was made on the way. -/
theorem Passes.exists_makes {rejected : List OpId} {pending : List (Expansion store)}
    {made : List (OpId × OpId)} (h : Passes store root tree rejected pending made)
    (hattaches : tree.Attaches parent child) :
    ∃ row before after, Makes store root row before after parent child ∧
      after.opids <+: tree.opids := by
  induction h with
  | @start attributes expansion loops span =>
    have hempty : ({ root, findings := loops } : CallTree).Sound :=
      sound_of_operations_eq_nil rfl rfl rfl
    obtain ⟨upper, hupper, -⟩ := hempty.attaches_of_attaches_addOperation hattaches
    cases hupper
  | @expand tree prepared rejected next pending waiting made grown hpasses hgrown hprepared ih =>
    have hopids : prepared.opids = grown.tree.opids := opids_of_prepare hprepared
    obtain ⟨expansions, findings, -, rfl, -⟩ := of_prepare hprepared
    rw [hopids]
    by_cases hold : tree.Attaches parent child
    · obtain ⟨row, before, after, hmakes, hprefix⟩ := ih hold
      exact ⟨row, before, after, hmakes, hprefix.trans (Growth.opids_prefix_of_followAll hgrown)⟩
    · obtain ⟨done, row, rest, before, after, hrows, hbefore, hafter, hrest, hmissing, hholds⟩ :=
        Growth.exists_follow_of_followAll (p := fun growth ↦ growth.tree.Attaches parent child)
          hold hattaches hgrown
      exact ⟨row, before.tree, after.tree,
        ⟨.step hpasses hrows hbefore hafter, hmissing, hholds⟩,
        Growth.opids_prefix_of_followAll hrest⟩

/-- Each attachment of a tree that is built was made by following a map row of the child. The child
hangs off the clearance operation of the row, or off the destination if the clearance operation was
not in the tree when the row was followed: it is not in the whole tree, it is the child itself, or
it entered later. A row whose clearance operation is in the tree attaches its child to nothing
else. -/
theorem cleared_of_build (hserves : store.Serves maps) (h : build store root = .ok tree) :
    (∀ parent child, tree.Attaches parent child → ∃ row ∈ maps, row.src = child ∧
      ∃ before after, Makes store root row before after parent child ∧
        after.opids <+: tree.opids ∧ parent ∈ before.opids ∧
        (row.clr = parent ∨ row.dst = parent ∧ row.clr ∉ before.opids ∧
          (row.clr ∉ tree.opids ∨ row.clr = child ∨
            row.clr ∈ tree.opids ∧ row.clr ∉ after.opids))) ∧
    ∀ row before after parent child, Makes store root row before after parent child →
      row ∈ maps ∧ row.src = child ∧
        parent = if row.clr ∈ before.opids then row.clr else row.dst := by
  constructor
  · intro parent child hattaches
    obtain ⟨rejected, made, hpasses⟩ := exists_passes_of_build h
    obtain ⟨row, before, after, hmakes, hprefix⟩ := hpasses.exists_makes hattaches
    obtain ⟨hmaps, rfl, hparent, heq⟩ := hmakes.decided hserves
    refine ⟨row, hmaps, rfl, before, after, hmakes, hprefix, hparent, ?_⟩
    by_cases hclr : row.clr ∈ before.opids
    · rw [if_pos hclr] at heq
      exact .inl heq.symm
    · rw [if_neg hclr] at heq
      exact .inr ⟨heq.symm, hclr, hmakes.follows.cases_of_notMem hclr tree⟩
  · intro row before after parent child hmakes
    obtain ⟨hmaps, hsrc, -, heq⟩ := hmakes.decided hserves
    exact ⟨hmaps, hsrc, heq⟩

end Runs

end CallTree

namespace Detour

open Sample

/-- Operation 1 is the root of three children. Operation 2 is cleared by 3, which the next row
leads to, and operation 4 is cleared by itself. -/
def trace : Trace := .ofRows
  [stateRow 1 0 1 .init, stateRow 2 90 1 .finish, stateRow 3 10 2 .init,
    stateRow 4 20 2 .finish, stateRow 5 30 3 .init, stateRow 6 40 3 .finish,
    stateRow 7 50 4 .init, stateRow 8 60 4 .finish]
  [] [mapRow 1 2 1 3, mapRow 2 3 1 1, mapRow 3 4 1 4]

theorem rows_eq : trace.maps.rows =
    [mapRow 1 2 1 3, mapRow 2 3 1 1, mapRow 3 4 1 4] := by cbv

theorem eq_of_src : (∀ row ∈ trace.maps.rows, row.src = 2 → row = mapRow 1 2 1 3) ∧
    ∀ row ∈ trace.maps.rows, row.src = 4 → row = mapRow 3 4 1 4 := by
  rw [rows_eq]
  decide

theorem resolve_root : trace.toStore.resolve 1 = .ok (.complete
    { opid := 1, fnTag := "request", smTag := none, start := 0, finish := 90 }) := by
  cbv

theorem exists_tree : ∃ tree, CallTree.build trace.toStore 1 = .ok tree ∧
    tree.opids = [1, 2, 3, 4] ∧ tree.Attaches 1 2 ∧ tree.Attaches 1 4 ∧ tree.Attaches 3 2 := by
  apply CallTree.exists_build_of_treeWithin 4 resolve_root rfl
  cbv

end Detour

namespace CallTree

/-- One row attaches operation 2 twice: under the root while operation 3 is not in the tree, and
under operation 3 once it is. Operation 4 hangs off the root since its row names it as its own
clearance operation. -/
theorem cleared_of_detour : ∃ tree, build Detour.trace.toStore 1 = .ok tree ∧
    (∃ before after, Makes Detour.trace.toStore 1 (Sample.mapRow 1 2 1 3) before after 1 2 ∧
      3 ∉ after.opids) ∧
    (∃ before after, Makes Detour.trace.toStore 1 (Sample.mapRow 1 2 1 3) before after 3 2 ∧
      3 ∈ before.opids) ∧
    ∃ before after, Makes Detour.trace.toStore 1 (Sample.mapRow 3 4 1 4) before after 1 4 ∧
      4 ∉ before.opids := by
  obtain ⟨tree, htree, hopids, hlate, hself, hknown⟩ := Detour.exists_tree
  obtain ⟨hmade, hdecided⟩ := cleared_of_build Detour.trace.serves htree
  refine ⟨tree, htree, ?_, ?_, ?_⟩
  · obtain ⟨row, hrow, hsrc, before, after, hmakes, -, -, hsides⟩ := hmade 1 2 hlate
    obtain rfl := Detour.eq_of_src.1 row hrow hsrc
    have habsent : 3 ∉ before.opids ∧ 3 ∉ after.opids := by
      simpa [Sample.mapRow, hopids] using hsides
    exact ⟨before, after, hmakes, habsent.2⟩
  · obtain ⟨row, hrow, hsrc, before, after, hmakes, -, hparent, -⟩ := hmade 3 2 hknown
    obtain rfl := Detour.eq_of_src.1 row hrow hsrc
    exact ⟨before, after, hmakes, hparent⟩
  · obtain ⟨row, hrow, hsrc, before, after, hmakes, -⟩ := hmade 1 4 hself
    obtain rfl := Detour.eq_of_src.2 row hrow hsrc
    refine ⟨before, after, hmakes, fun hclr ↦ ?_⟩
    have hparent : (1 : OpId) = if 4 ∈ before.opids then 4 else 1 :=
      (hdecided _ _ _ _ _ hmakes).2.2
    rw [if_pos hclr] at hparent
    exact absurd hparent (by decide)

/-- Operations 2 and 4 hang off the root, which is the clearance operation of neither, and the
clearance operations of both are in the tree. -/
theorem not_cleared_of_detour : Detour.trace.toStore.Serves Detour.trace.maps.rows ∧
    (Detour.trace.maps.rows.map (·.id)).Nodup ∧ ∃ tree, build Detour.trace.toStore 1 = .ok tree ∧
      (tree.Attaches 1 2 ∧ ¬ ∃ row ∈ Detour.trace.maps.rows, row.src = 2 ∧
        (row.clr = 1 ∨ row.dst = 1 ∧ row.clr ∉ tree.opids)) ∧
      (tree.Attaches 1 4 ∧ ¬ ∃ row ∈ Detour.trace.maps.rows, row.src = 4 ∧
        (row.clr = 1 ∨ row.dst = 1 ∧ row.clr ∉ tree.opids)) := by
  obtain ⟨tree, htree, hopids, hlate, hself, -⟩ := Detour.exists_tree
  refine ⟨Detour.trace.serves, ?_⟩
  rw [Detour.rows_eq]
  refine ⟨by decide, tree, htree, ⟨hlate, ?_⟩, hself, ?_⟩
  all_goals
    rw [hopids]
    decide

end CallTree

end OpTrace

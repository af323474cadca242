import OpTrace.CallTree.Build
import OpTrace.Proofs.Answer
import OpTrace.Proofs.CallTree.Growth

/-!
# Runs of the growth

What one step of the growth can do, as a list of cases, and what a whole run keeps, as an
induction over its steps. `Followed` says what following one row does to a sound tree: the row is
passed over, its child is attached, discarded, or enters the tree, or the attachment is refused.
-/

namespace OpTrace

open Relation

namespace CallTree

namespace Growth

/-- The operation under which the child of a row is attached while `current` is expanded. -/
def parentFor (growth : Growth) (current : OpId) (row : MapRow) : OpId :=
  if growth.tree.contains row.clr then row.clr else current

theorem ite_eq_parentFor (growth : Growth) (current : OpId) (row : MapRow) :
    (if growth.tree.contains row.clr then row.clr else current) =
      growth.parentFor current row := rfl

theorem parentFor_eq (growth : Growth) (current : OpId) (row : MapRow) :
    growth.parentFor current row = row.clr ∨
      (growth.parentFor current row = current ∧ row.clr ∉ growth.tree.opids) := by
  by_cases h : row.clr ∈ growth.tree.opids
  · exact .inl (by simp [parentFor, contains, h])
  · exact .inr ⟨by simp [parentFor, contains, h], h⟩

theorem parentFor_mem {growth : Growth} {current : OpId} (hcurrent : current ∈ growth.tree.opids)
    (row : MapRow) : growth.parentFor current row ∈ growth.tree.opids := by
  by_cases h : row.clr ∈ growth.tree.opids
  · simp [parentFor, contains, h]
  · simpa [parentFor, contains, h] using hcurrent

/-- What following a row does to a growth whose tree is sound. -/
inductive Followed (store : Store) (current : OpId) (growth : Growth) (row : MapRow)
    (grown : Growth) : Prop
  /-- the child was rejected before -/
  | passed (hrejected : row.src ∈ growth.rejected) (hgrown : grown = growth)
  /-- the child is in the tree and is attached -/
  | attached {upper lower : Operation} {tree : CallTree} (hrejected : row.src ∉ growth.rejected)
    (hupper : upper ∈ growth.tree.operations) (hlower : lower ∈ growth.tree.operations)
    (hparent : upper.span.opid = growth.parentFor current row)
    (hchild : lower.span.opid = row.src) (hattached : growth.tree.Attachment upper lower tree)
    (hsound : tree.Sound) (hgrown : grown = { growth with tree })
  /-- the child is in the tree, above the operation that it would be attached to -/
  | refused (hrejected : row.src ∉ growth.rejected) (hknown : row.src ∈ growth.tree.opids)
    (hback : ReflTransGen growth.tree.Attaches row.src (growth.parentFor current row))
    (hgrown : grown = { growth with
      tree := growth.tree.report
        [.cycleSkipped row.id row.src (growth.parentFor current row)] })
  /-- the child has no complete span -/
  | discarded {finding : Finding} (hrejected : row.src ∉ growth.rejected)
    (hnew : row.src ∉ growth.tree.opids)
    (hresolve : store.resolve row.src = .ok (.incomplete finding))
    (hgrown : grown = { growth with
      tree := growth.tree.report [finding], rejected := row.src :: growth.rejected })
  /-- the child is new, and it is attached at once -/
  | entered {upper : Operation} {span : Span} {attributes : List AttributeRow} {tree : CallTree}
    (hrejected : row.src ∉ growth.rejected) (hnew : row.src ∉ growth.tree.opids)
    (hupper : upper ∈ growth.tree.operations)
    (hparent : upper.span.opid = growth.parentFor current row)
    (hresolve : store.resolve row.src = .ok (.complete span))
    (hattributes : store.attributesOf row.src = .ok attributes)
    (hattached : (growth.tree.addOperation span (some upper.span.opid)
        (Annotations.ofAttributes row.src attributes)).Attachment upper
      (.placed growth.tree.nodes.length span (some upper.span.opid)
        (Annotations.ofAttributes row.src attributes)) tree)
    (hsound : tree.Sound)
    (hgrown : grown = { growth with tree, entered := growth.entered ++ [row.src] })

variable {store : Store} {current : OpId} {growth grown : Growth} {row : MapRow}

theorem followed_of_follow (hsound : growth.tree.Sound) (hcurrent : current ∈ growth.tree.opids)
    (h : growth.follow store current row = .ok grown) :
    growth.Followed store current row grown := by
  have hparent := parentFor_mem hcurrent row
  obtain ⟨upper, hupper, heq⟩ := exists_of_mem_opids hparent
  unfold follow at h
  split at h
  · next hrejected => exact .passed hrejected (by cases h; rfl)
  next hrejected =>
  simp only [ite_eq_parentFor] at h
  split at h
  · next hknown =>
    have hknown : row.src ∈ growth.tree.opids := by simpa [contains] using hknown
    rcases hsound.attach?_cases hparent hknown with
      ⟨hnone, hback⟩ | ⟨upper, hupper, lower, hlower, tree, heq, heq', hsome, hattached, hback⟩
    · refine .refused hrejected hknown hback ?_
      simpa [attach, hnone] using h.symm
    · have hsound' := hsound.sound_attachment hupper hlower hattached (by rwa [heq, heq'])
      refine .attached hrejected hupper hlower heq heq' hattached hsound' ?_
      simpa [attach, hsome] using h.symm
  next hnew =>
  have hnew : row.src ∉ growth.tree.opids := by simpa [contains] using hnew
  obtain ⟨resolution, hresolve, h⟩ := bind_eq_ok.mp h
  cases resolution with
  | incomplete finding =>
    exact .discarded hrejected hnew hresolve (pure_eq_ok.mp h).symm
  | complete span =>
    obtain ⟨attributes, hattributes, h⟩ := bind_eq_ok.mp h
    have hspan := Store.opid_of_resolve hresolve
    obtain ⟨tree, hsome, hattached, hsound'⟩ := hsound.attach?_addOperation
      (some upper.span.opid) (Annotations.ofAttributes row.src attributes)
      hupper (hspan ▸ hnew)
    refine .entered hrejected hnew hupper heq hresolve hattributes hattached hsound' ?_
    rw [← pure_eq_ok.mp h]
    rw [hspan, heq] at hsome
    simp only [attach]
    rw [hsome]

/-- What holds after the rows are followed, if each step takes it from the rows before to one row
more. -/
theorem followAll_induction {motive : List MapRow → Growth → Prop} {rows : List MapRow}
    (hstep : ∀ done row growth grown, row ∈ rows → motive done growth →
      growth.follow store current row = .ok grown → motive (done ++ [row]) grown)
    (hstart : motive [] growth) (h : growth.followAll store current rows = .ok grown) :
    motive rows grown := by
  suffices hall : ∀ (done rest : List MapRow) (growth : Growth), rows = done ++ rest →
      motive done growth → growth.followAll store current rest = .ok grown → motive rows grown from
    hall [] rows growth rfl hstart h
  intro done rest
  induction rest generalizing done with
  | nil =>
    intro growth hrows hdone h
    cases h
    rwa [hrows, List.append_nil]
  | cons row rest ih =>
    intro growth hrows hdone h
    obtain ⟨next, hnext, h⟩ := bind_eq_ok.mp h
    refine ih (done ++ [row]) next (by simp [hrows]) ?_ h
    exact hstep done row growth next (by simp [hrows]) hdone hnext

/-- What holds only after rows are followed was brought about by one of them. -/
theorem exists_follow_of_followAll {p : Growth → Prop} {rows : List MapRow} (hmissing : ¬ p growth)
    (hholds : p grown) (h : growth.followAll store current rows = .ok grown) :
    ∃ done row rest before after, rows = done ++ row :: rest ∧
      growth.followAll store current done = .ok before ∧
      before.follow store current row = .ok after ∧
      after.followAll store current rest = .ok grown ∧ ¬ p before ∧ p after := by
  induction rows generalizing growth with
  | nil =>
    cases h
    exact absurd hholds hmissing
  | cons row rows ih =>
    obtain ⟨next, hnext, hrows⟩ := bind_eq_ok.mp h
    by_cases hearly : p next
    · exact ⟨[], row, rows, growth, next, rfl, rfl, hnext, hrows, hmissing, hearly⟩
    · obtain ⟨done, later, rest, before, after, rfl, hdone, hlater⟩ := ih hearly hrows
      exact ⟨row :: done, later, rest, before, after, rfl,
        bind_eq_ok.mpr ⟨next, hnext, hdone⟩, hlater⟩

theorem opids_prefix_of_followAll {rows : List MapRow}
    (h : growth.followAll store current rows = .ok grown) :
    growth.tree.opids <+: grown.tree.opids := by
  obtain ⟨more, hopids, -⟩ := opids_of_followAll h
  exact ⟨more, hopids.symm⟩

end Growth

section Expand

variable {store : Store} {opid : OpId} {expansion : Expansion store} {loops : Findings}

/-- What the rows into and cleared by an operation give. -/
theorem of_expansionOf (h : expansionOf store opid = .ok (expansion, loops)) :
    ∃ into clearedBy, store.mapsInto opid = .ok into ∧ store.mapsClearedBy opid = .ok clearedBy ∧
      expansion.opid = opid ∧
      expansion.links = (mergeLinks into clearedBy).filter (·.src ≠ opid) ∧
      loops = ((mergeLinks into clearedBy).filter (·.src = opid)).map
        fun row ↦ .cycleSkipped row.id row.src opid := by
  unfold expansionOf at h
  split at h
  · cases h
  · next into hinto =>
    split at h
    · cases h
    · next clearedBy hcleared =>
      cases h
      exact ⟨into, clearedBy, hinto, hcleared, rfl, rfl, rfl⟩

/-- Rows of an operation that names itself as its child are found, each as a cycle of its own. -/
theorem eq_cycleSkipped_of_mem_loops (h : expansionOf store opid = .ok (expansion, loops))
    {finding : Finding} (hfinding : finding ∈ loops) :
    ∃ map, finding = .cycleSkipped map opid opid := by
  obtain ⟨into, clearedBy, -, -, -, -, rfl⟩ := of_expansionOf h
  obtain ⟨row, hrow, rfl⟩ := List.mem_map.mp hfinding
  have hsrc : row.src = opid := by simpa using (List.mem_filter.mp hrow).2
  exact ⟨row.id, by rw [hsrc]⟩

/-- What the operations that entered the tree add to the list of those that wait, and to the
findings. -/
theorem of_prepare {tree prepared : CallTree} {pending waiting : List (Expansion store)}
    {opids : List OpId} (h : prepare store tree pending opids = .ok (prepared, waiting)) :
    ∃ expansions findings, waiting = expansions ++ pending ∧ prepared = tree.report findings ∧
      expansions.map (·.opid) = opids ∧
      (∀ expansion ∈ expansions, ∃ loops,
        expansionOf store expansion.opid = .ok (expansion, loops) ∧ loops ⊆ findings) ∧
      ∀ finding ∈ findings, ∃ map opid, finding = .cycleSkipped map opid opid := by
  induction opids generalizing prepared waiting with
  | nil =>
    cases h
    exact ⟨[], [], rfl, by simp [report], rfl, by simp, by simp⟩
  | cons opid opids ih =>
    obtain ⟨⟨below, later⟩, hbelow, h⟩ := bind_eq_ok.mp h
    obtain ⟨⟨expansion, loops⟩, hexpansion, h⟩ := bind_eq_ok.mp h
    obtain ⟨rfl, rfl⟩ := Prod.mk.inj (pure_eq_ok.mp h)
    obtain ⟨expansions, findings, rfl, rfl, hopids, hexpansions, hfindings⟩ := ih hbelow
    have hopid : expansion.opid = opid := by
      obtain ⟨_, _, -, -, hopid, -⟩ := of_expansionOf hexpansion
      exact hopid
    refine ⟨expansion :: expansions, findings ++ loops, rfl, by simp [report], ?_, ?_, ?_⟩
    · rw [List.map_cons, hopid, hopids]
    · intro other hother
      rcases List.mem_cons.mp hother with rfl | hother
      · exact ⟨loops, hopid.symm ▸ hexpansion, List.subset_append_right _ _⟩
      · obtain ⟨loops', hloops, hsub⟩ := hexpansions other hother
        exact ⟨loops', hloops, List.Subset.trans hsub (List.subset_append_left _ _)⟩
    · intro finding hfinding
      rcases List.mem_append.mp hfinding with hold | hnew
      · exact hfindings finding hold
      · obtain ⟨map, heq⟩ := eq_cycleSkipped_of_mem_loops hexpansion hnew
        exact ⟨map, opid, heq⟩

/-- What holds once no operation waits, if the expansion of one operation keeps it. -/
theorem expandAll_induction {motive : CallTree → List OpId → List (Expansion store) → Prop}
    (hstep : ∀ tree rejected next pending grown prepared waiting,
      motive tree rejected (next :: pending) →
      Growth.followAll store next.opid { tree, rejected } next.links = .ok grown →
      prepare store grown.tree pending grown.entered = .ok (prepared, waiting) →
      motive prepared grown.rejected waiting)
    {tree final : CallTree} {rejected : List OpId} {pending : List (Expansion store)}
    (hstart : motive tree rejected pending)
    (h : expandAll store tree rejected pending = .ok final) :
    ∃ rejected', motive final rejected' [] := by
  fun_induction expandAll store tree rejected pending with
  | case1 tree rejected =>
    cases h
    exact ⟨rejected, hstart⟩
  | case2 => cases h
  | case3 => cases h
  | case4 tree rejected next pending grown hgrown prepared waiting hprepared ih =>
    exact ih (hstep _ _ _ _ _ _ _ hstart hgrown hprepared) h

end Expand

def start (root : OpId) (loops : Findings) (span : Span) (attributes : List AttributeRow) :
    CallTree :=
  CallTree.addOperation { root, findings := loops } span none
    (Annotations.ofAttributes root attributes)

/-- What a tree is built from. -/
theorem of_build {store : Store} {root : OpId} {tree : CallTree}
    (h : build store root = .ok tree) :
    ∃ attributes expansion loops span, store.attributesOf root = .ok attributes ∧
      expansionOf store root = .ok (expansion, loops) ∧
      store.resolve root = .ok (.complete span) ∧
      expandAll store (CallTree.addOperation { root, findings := loops } span none
        (Annotations.ofAttributes root attributes)) [] [expansion] = .ok tree := by
  obtain ⟨states, hstates, h⟩ := bind_eq_ok.mp h
  obtain ⟨attributes, hattributes, h⟩ := bind_eq_ok.mp h
  obtain ⟨⟨expansion, loops⟩, hexpansion, h⟩ := bind_eq_ok.mp h
  rw [lift_eq_ok] at hstates hattributes hexpansion
  simp only at h
  split at h
  · cases h
  · cases hresolution : Resolution.ofStates root states with
    | incomplete finding =>
      rw [hresolution] at h
      cases h
    | complete span =>
      rw [hresolution] at h
      refine ⟨attributes, expansion, loops, span, hattributes, hexpansion, ?_, lift_eq_ok.mp h⟩
      rw [Store.resolve, hstates, ← hresolution]
      rfl

end CallTree

end OpTrace

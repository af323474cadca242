import OpTrace.Proofs.CallTree.Total

/-!
# Runs of few steps

The growth of a tree ends for a reason that depends on the whole store, so the tree of a given
trace is not found by computing. A run with a bound on its steps is found that way, and if no
operation waits after that many steps the bound makes no difference.
-/

namespace OpTrace

namespace CallTree

variable {store : Store} {root : OpId} {tree final : CallTree}

/-- Expands operations until none waits, and `steps` of them at most. There is no tree if some
operation still waits then. -/
def expandWithin (store : Store) : Nat → CallTree → List OpId → List (Expansion store) →
    StoreResult (Option CallTree)
  | _, tree, _, [] => .ok (some tree)
  | 0, _, _, _ :: _ => .ok none
  | steps + 1, tree, rejected, next :: pending => do
    let grown ← Growth.followAll store next.opid { tree, rejected } next.links
    let (prepared, waiting) ← prepare store grown.tree pending grown.entered
    expandWithin store steps prepared grown.rejected waiting

theorem expandAll_cons {rejected : List OpId} {next : Expansion store}
    {pending waiting : List (Expansion store)} {grown : Growth} {prepared : CallTree}
    (hgrown : Growth.followAll store next.opid { tree, rejected } next.links = .ok grown)
    (hprepared : prepare store grown.tree pending grown.entered = .ok (prepared, waiting)) :
    expandAll store tree rejected (next :: pending) =
      expandAll store prepared grown.rejected waiting := by
  rw [expandAll]
  split
  · next error herror => cases hgrown.symm.trans herror
  · next grown' hgrown' =>
    obtain rfl := Except.ok.inj (hgrown.symm.trans hgrown')
    split
    · next error herror => cases hprepared.symm.trans herror
    · next prepared' waiting' hprepared' =>
      obtain ⟨rfl, rfl⟩ := Prod.mk.inj (Except.ok.inj (hprepared.symm.trans hprepared'))
      rfl

/-- A bound that is large enough makes no difference. -/
theorem expandAll_of_expandWithin {steps : Nat} {rejected : List OpId}
    {pending : List (Expansion store)}
    (h : expandWithin store steps tree rejected pending = .ok (some final)) :
    expandAll store tree rejected pending = .ok final := by
  induction steps generalizing tree rejected pending with
  | zero =>
    cases pending with
    | nil =>
      cases h
      rw [expandAll]
    | cons next pending => cases h
  | succ steps ih =>
    cases pending with
    | nil =>
      cases h
      rw [expandAll]
    | cons next pending =>
      obtain ⟨grown, hgrown, h⟩ := bind_eq_ok.mp h
      obtain ⟨⟨prepared, waiting⟩, hprepared, h⟩ := bind_eq_ok.mp h
      rw [expandAll_cons hgrown hprepared]
      exact ih h

/-- The tree below an operation with the given span and attributes, if it takes `steps` expansions
at most. -/
def treeWithin (store : Store) (steps : Nat) (root : OpId) (span : Span)
    (attributes : List AttributeRow) : StoreResult (Option CallTree) := do
  let (expansion, loops) ← expansionOf store root
  expandWithin store steps (start root loops span attributes) [] [expansion]

/-- What is computed of a run with a bound holds of the tree that is built. -/
theorem exists_build_of_treeWithin {p : CallTree → Prop} [DecidablePred p] (steps : Nat)
    {span : Span} {attributes : List AttributeRow}
    (hresolve : store.resolve root = .ok (.complete span))
    (hattributes : store.attributesOf root = .ok attributes)
    (h : (treeWithin store steps root span attributes).map (Option.map fun tree ↦ decide (p tree)) =
      .ok (some true)) : ∃ tree, build store root = .ok tree ∧ p tree := by
  cases hrun : treeWithin store steps root span attributes with
  | error error => simp [hrun, Except.map] at h
  | ok result =>
    cases result with
    | none => simp [hrun, Except.map] at h
    | some tree =>
      obtain ⟨⟨expansion, loops⟩, hexpansion, hwithin⟩ := bind_eq_ok.mp hrun
      have htree := expandAll_of_expandWithin hwithin
      exact ⟨tree, build_of_expandAll hresolve hattributes hexpansion htree,
        by simpa [hrun, Except.map] using h⟩

end CallTree

end OpTrace

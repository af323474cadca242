import OpTrace.Discovery

/-!
# Reachability

Which nodes of a finite graph can be reached from a node is found by following edges from nodes
that are reached to nodes that are not, until none is left.
-/

namespace OpTrace

abbrev Link := Nat × Nat

/-- The targets that are not seen yet, each once. -/
def newTargets (seen : List Nat) : List Nat → List Nat
  | [] => []
  | node :: nodes =>
    if node ∈ seen then newTargets seen nodes
    else node :: newTargets (node :: seen) nodes

theorem mem_of_mem_newTargets {seen nodes : List Nat} {node : Nat}
    (h : node ∈ newTargets seen nodes) : node ∈ nodes ∧ node ∉ seen := by
  induction nodes generalizing seen with
  | nil => simp [newTargets] at h
  | cons first rest ih =>
    simp only [newTargets] at h
    split at h
    · exact ⟨List.mem_cons_of_mem _ (ih h).1, (ih h).2⟩
    · next hfirst =>
      rcases List.mem_cons.mp h with rfl | hrest
      · exact ⟨List.mem_cons_self, hfirst⟩
      · have := ih hrest
        exact ⟨List.mem_cons_of_mem _ this.1, fun hs ↦ this.2 (List.mem_cons_of_mem _ hs)⟩

/-- The nodes that links from a node lead to. -/
def targetsOf (links : List Link) (node : Nat) : List Nat :=
  (links.filter (·.1 = node)).map (·.2)

theorem mem_targetsOf {links : List Link} {node target : Nat} :
    target ∈ targetsOf links node ↔ (node, target) ∈ links := by
  simp [targetsOf, and_comm]

/-- The nodes in `seen` and all that links lead to from the nodes in `frontier`. -/
def reachFrom (links : List Link) (seen frontier : List Nat) : List Nat :=
  match frontier with
  | [] => seen
  | node :: frontier =>
    let next := newTargets seen (targetsOf links node)
    reachFrom links (seen ++ next) (frontier ++ next)
termination_by (undiscovered (links.map (·.2)) seen, frontier.length)
decreasing_by
  simp_wf
  cases hnext : newTargets seen (targetsOf links node) with
  | nil => simp [Prod.lex_def]
  | cons target others =>
    have hmem : target ∈ newTargets seen (targetsOf links node) := by simp [hnext]
    obtain ⟨htarget, hnew⟩ := mem_of_mem_newTargets hmem
    have hlink := List.mem_map_of_mem (f := Prod.snd) (mem_targetsOf.mp htarget)
    exact Prod.Lex.left _ _
      (undiscovered_append_lt hlink hnew (List.mem_cons_self (a := target) (l := others)))

/-- Can `target` be reached from `node` along links? A node reaches itself. -/
def reaches (links : List Link) (node target : Nat) : Bool :=
  decide (target ∈ reachFrom links [node] [node])

end OpTrace

import OpTrace.Discovery
import OpTrace.Store.Basic

/-!
# Descents

The descendants of an operation are found breadth first: the map rows into an operation name its
children, and the children of earlier operations come before those of later ones. Each descendant
is visited once, through the first row that reaches it. A descendant without a complete span is
visited too, and the walk goes on below it.

The walk asks the store for the rows into one operation, resolves the children that are new, and
goes on to the next operation, so a question that fails is the first one in this order.
-/

namespace OpTrace

/-- A descendant: the map row through which it was reached, and what is known of it. -/
structure Visit where
  row : MapRow
  resolution : Resolution
  deriving DecidableEq, Repr

/-- The rows whose source is not known yet, the first row for each source. -/
def newSources (known : List OpId) : List MapRow → List MapRow
  | [] => []
  | row :: rows =>
    if row.src ∈ known then newSources known rows
    else row :: newSources (row.src :: known) rows

theorem mem_of_mem_newSources {known : List OpId} {rows : List MapRow} {row : MapRow}
    (h : row ∈ newSources known rows) : row ∈ rows ∧ row.src ∉ known := by
  induction rows generalizing known with
  | nil => simp [newSources] at h
  | cons first rest ih =>
    simp only [newSources] at h
    split at h
    · exact ⟨List.mem_cons_of_mem _ (ih h).1, (ih h).2⟩
    · next hfirst =>
      rcases List.mem_cons.mp h with rfl | hrest
      · exact ⟨List.mem_cons_self, hfirst⟩
      · have := ih hrest
        exact ⟨List.mem_cons_of_mem _ this.1, fun hk ↦ this.2 (List.mem_cons_of_mem _ hk)⟩

def visitAll (store : Store) : List MapRow → StoreResult (List Visit)
  | [] => .ok []
  | row :: rows => do
    let resolution ← store.resolve row.src
    let visits ← visitAll store rows
    return { row, resolution } :: visits

/-- Walks on from the operations in `queue`, when those in `known` are discovered. -/
def descendFrom (store : Store) (known queue : List OpId) : StoreResult (List Visit) :=
  match queue with
  | [] => .ok []
  | opid :: queue =>
    match _hrows : store.mapsInto opid with
    | .error error => .error error
    | .ok rows => do
      let fresh := newSources known rows
      let opids := fresh.map (·.src)
      let visits ← visitAll store fresh
      let rest ← descendFrom store (known ++ opids) (queue ++ opids)
      return visits ++ rest
termination_by (undiscovered store.sources known, queue.length)
decreasing_by
  simp_wf
  cases hfresh : newSources known rows with
  | nil => simp [Prod.lex_def]
  | cons row others =>
    have hmem : row ∈ newSources known rows := by simp [hfresh]
    obtain ⟨hrow, hnew⟩ := mem_of_mem_newSources hmem
    have hlt := undiscovered_append_lt (store.mem_sources_of_mapsInto _hrows hrow) hnew
      (List.mem_map_of_mem (List.mem_cons_self (a := row) (l := others)))
    exact Prod.Lex.left _ _ hlt

def descend (store : Store) (root : OpId) : StoreResult (List Visit) :=
  descendFrom store [root] [root]

end OpTrace

import Mathlib.Data.List.Nodup
import Mathlib.Logic.Relation
import OpTrace.Breakdown.Descent
import OpTrace.Proofs.Store.Serving

/-!
# What a descent visits

A descent finds exactly the operations that map rows lead to from the root, in one step or in many,
and visits each of them once. The root is known from the start and is not visited, even where rows
lead back to it. The walk goes on below an operation whatever the resolver says of it, so an
operation without a complete span hides nothing.

The walk comes to an end for every table of map rows, cyclic or not, and a store without failures
answers each of its questions.
-/

namespace OpTrace

open Relation

/-- A map row says that `parent` started `child`. -/
def Starts (maps : List MapRow) (parent child : OpId) : Prop :=
  ∃ row ∈ maps, row.dst = parent ∧ row.src = child

/-- Map rows lead from the root to the operation, which is another one. -/
def Descendant (maps : List MapRow) (root opid : OpId) : Prop :=
  opid ≠ root ∧ ReflTransGen (Starts maps) root opid

def Visit.opid (visit : Visit) : OpId := visit.row.src

section Descent

variable {store : Store} {maps : List MapRow}

/-- The sources that are new are those that appear first. -/
theorem map_src_newSources (known : List OpId) (rows : List MapRow) :
    (newSources known rows).map (·.src) = Trace.firstAppearances known (rows.map (·.src)) := by
  induction rows generalizing known with
  | nil => rfl
  | cons row rows ih =>
    simp only [newSources, List.map_cons, Trace.firstAppearances]
    split <;> simp [ih]

theorem of_visitAll {rows : List MapRow} {visits : List Visit}
    (h : visitAll store rows = .ok visits) :
    visits.map Visit.opid = rows.map (·.src) ∧
      ∀ visit ∈ visits, store.resolve visit.opid = .ok visit.resolution := by
  induction rows generalizing visits with
  | nil =>
    cases h
    simp
  | cons row rows ih =>
    obtain ⟨resolution, hresolve, h⟩ := bind_eq_ok.mp h
    obtain ⟨rest, hrest, h⟩ := bind_eq_ok.mp h
    obtain rfl := pure_eq_ok.mp h
    obtain ⟨hopids, hresolved⟩ := ih hrest
    exact ⟨by rw [List.map_cons, List.map_cons, hopids, Visit.opid],
      List.forall_mem_cons.mpr ⟨hresolve, hresolved⟩⟩

theorem map_row_visitAll {rows : List MapRow} {visits : List Visit}
    (h : visitAll store rows = .ok visits) : visits.map Visit.row = rows := by
  induction rows generalizing visits with
  | nil =>
    cases h
    rfl
  | cons row rows ih =>
    obtain ⟨resolution, -, h⟩ := bind_eq_ok.mp h
    obtain ⟨rest, hrest, h⟩ := bind_eq_ok.mp h
    obtain rfl := pure_eq_ok.mp h
    rw [List.map_cons, ih hrest]

theorem exists_visitAll (h : store.Serves maps) (rows : List MapRow) :
    ∃ visits, visitAll store rows = .ok visits := by
  induction rows with
  | nil => exact ⟨[], rfl⟩
  | cons row rows ih =>
    obtain ⟨resolution, hresolve⟩ := h.exists_resolve row.src
    obtain ⟨visits, hvisits⟩ := ih
    exact ⟨_, bind_eq_ok.mpr ⟨resolution, hresolve, bind_eq_ok.mpr ⟨visits, hvisits, rfl⟩⟩⟩

/-- The visits to new sources are visits to the children that were not known, each visited once. -/
theorem opids_of_visitAll {known : List OpId} {opid : OpId} {rows : List MapRow}
    {visits : List Visit} (hrows : ∀ row, row ∈ rows ↔ row ∈ maps ∧ row.dst = opid)
    (h : visitAll store (newSources known rows) = .ok visits) :
    (visits.map Visit.opid).Nodup ∧
      ∀ child, child ∈ visits.map Visit.opid ↔ Starts maps opid child ∧ child ∉ known := by
  rw [(of_visitAll h).1, map_src_newSources]
  refine ⟨Trace.nodup_firstAppearances known _, fun child ↦ ?_⟩
  simp only [Trace.mem_firstAppearances, List.mem_map, hrows, Starts, and_assoc]

/-- Each visit of a walk knows what the resolver says of its operation. -/
theorem resolved_of_descendFrom {known queue : List OpId} {visits : List Visit}
    (h : descendFrom store known queue = .ok visits) :
    ∀ visit ∈ visits, store.resolve visit.opid = .ok visit.resolution := by
  fun_induction descendFrom store known queue generalizing visits with
  | case1 known =>
    cases h
    simp
  | case2 known opid queue error herror => cases h
  | case3 known opid queue rows hrows fresh opids =>
    rename_i ih
    obtain ⟨first, hfirst, h⟩ := bind_eq_ok.mp h
    obtain ⟨rest, hrest, h⟩ := bind_eq_ok.mp h
    obtain rfl := pure_eq_ok.mp h
    exact List.forall_mem_append.mpr ⟨(of_visitAll hfirst).2, ih hrest⟩

/-- A walk on from the operations in `queue`, when those in `known` are discovered, visits
operations that are new and below the queue, each once, and leaves none of them out. -/
structure Walked (maps : List MapRow) (known queue : List OpId) (visits : List Visit) :
    Prop where
  nodup : known.Nodup → (known ++ visits.map Visit.opid).Nodup
  below : ∀ child ∈ visits.map Visit.opid, ∃ opid ∈ queue, ReflTransGen (Starts maps) opid child
  closed : ∀ opid ∈ queue ++ visits.map Visit.opid, ∀ child, Starts maps opid child →
    child ∈ known ++ visits.map Visit.opid

/-- A walk visits the new children of the first operation in its queue, and then walks on. -/
theorem Walked.walked_cons {known queue : List OpId} {opid : OpId} {rows : List MapRow}
    {visits rest : List Visit} (hrows : ∀ row, row ∈ rows ↔ row ∈ maps ∧ row.dst = opid)
    (hvisits : visitAll store (newSources known rows) = .ok visits)
    (h : Walked maps (known ++ visits.map Visit.opid) (queue ++ visits.map Visit.opid)
      rest) : Walked maps known (opid :: queue) (visits ++ rest) := by
  obtain ⟨hnodup, hmem⟩ := opids_of_visitAll hrows hvisits
  refine ⟨fun hknown ↦ ?_, ?_, ?_⟩
  · rw [List.map_append, ← List.append_assoc]
    exact h.nodup (hknown.append hnodup fun child hin hchild ↦ ((hmem child).mp hchild).2 hin)
  · intro child hchild
    rw [List.map_append, List.mem_append] at hchild
    rcases hchild with hnew | hlater
    · exact ⟨opid, List.mem_cons_self, .single ((hmem child).mp hnew).1⟩
    · obtain ⟨above, habove, hpath⟩ := h.below child hlater
      rcases List.mem_append.mp habove with hwaits | hnew
      · exact ⟨above, List.mem_cons_of_mem _ hwaits, hpath⟩
      · exact ⟨opid, List.mem_cons_self, .head ((hmem above).mp hnew).1 hpath⟩
  · intro above habove child hstarts
    rw [List.map_append, ← List.append_assoc]
    rw [List.map_append, List.cons_append, List.mem_cons, ← List.append_assoc] at habove
    rcases habove with rfl | hlater
    · -- the children of the first operation are known already or are visited now
      refine List.mem_append_left _ (List.mem_append.mpr ?_)
      by_cases hknown : child ∈ known
      · exact .inl hknown
      · exact .inr ((hmem child).mpr ⟨hstarts, hknown⟩)
    · exact h.closed above hlater child hstarts

/-- Where all that is known waits in the queue, no path leads out of what is found. -/
theorem Walked.mem_of_path {known : List OpId} {visits : List Visit}
    (h : Walked maps known known visits) {opid child : OpId} (hopid : opid ∈ known)
    (hpath : ReflTransGen (Starts maps) opid child) : child ∈ known ++ visits.map Visit.opid := by
  induction hpath with
  | refl => exact List.mem_append_left _ hopid
  | tail _ hstarts ih => exact h.closed _ ih _ hstarts

/-- A walk over a store without failures comes to an end. -/
theorem exists_walked (hserves : store.Serves maps) (known queue : List OpId) :
    ∃ visits, descendFrom store known queue = .ok visits ∧
      Walked maps known queue visits := by
  fun_induction descendFrom store known queue with
  | case1 known => exact ⟨[], rfl, by simp, by simp, by simp⟩
  | case2 known opid queue error herror =>
    obtain ⟨rows, hrows, -⟩ := hserves.into opid
    cases herror.symm.trans hrows
  | case3 known opid queue rows hrows fresh opids ih =>
    obtain ⟨rows', hrows', hmem⟩ := hserves.into opid
    obtain rfl := Except.ok.inj (hrows.symm.trans hrows')
    obtain ⟨visits, hvisits⟩ := exists_visitAll hserves fresh
    obtain ⟨rest, hrest, hwalked⟩ := ih
    refine ⟨visits ++ rest, ?_, ?_⟩
    · exact bind_eq_ok.mpr ⟨visits, hvisits, bind_eq_ok.mpr ⟨rest, hrest, rfl⟩⟩
    · have hopids : opids = visits.map Visit.opid := (of_visitAll hvisits).1.symm
      rw [hopids] at hwalked
      exact hwalked.walked_cons hmem hvisits

/-- The visits of a descent are those to the descendants of the root. -/
structure Descent (store : Store) (maps : List MapRow) (root : OpId) (visits : List Visit) :
    Prop where
  resolved : ∀ visit ∈ visits, store.resolve visit.opid = .ok visit.resolution
  nodup : (visits.map Visit.opid).Nodup
  mem_iff : ∀ opid, opid ∈ visits.map Visit.opid ↔ Descendant maps root opid

/-- There is a descent from each operation. -/
theorem exists_descent (hserves : store.Serves maps) (root : OpId) :
    ∃ visits, descend store root = .ok visits ∧ Descent store maps root visits := by
  obtain ⟨visits, hvisits, h⟩ := exists_walked hserves [root] [root]
  obtain ⟨hroot, hnodup⟩ := List.nodup_cons.mp (h.nodup (List.nodup_singleton root))
  refine ⟨visits, hvisits, resolved_of_descendFrom hvisits, hnodup, fun opid ↦ ⟨fun hopid ↦ ?_, ?_⟩⟩
  · obtain ⟨above, habove, hpath⟩ := h.below opid hopid
    rw [List.mem_singleton.mp habove] at hpath
    exact ⟨fun heq ↦ hroot (heq ▸ hopid), hpath⟩
  · rintro ⟨hother, hpath⟩
    have hfound := h.mem_of_path (List.mem_singleton_self root) hpath
    exact (List.mem_cons.mp hfound).resolve_left hother

end Descent

end OpTrace

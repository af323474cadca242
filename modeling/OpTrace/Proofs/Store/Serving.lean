import OpTrace.Proofs.Answer
import OpTrace.Store.Trace

/-!
# Stores that serve rows

What a call tree asks of its store. A store that serves map rows answers every question about an
operation, and the rows that it gives for a destination or for a clearance operation are those of
one table. In what order they come, and how often, is left open.

What a histogram asks of its store. A store that serves state rows takes those of an operation and
those with a matching tag from one table, in the order of that table. Which tags match a pattern is
left to the store.

A trace in memory serves all its rows.
-/

namespace OpTrace

namespace Store

/-- The store answers every question about an operation, the ones about its map rows from `maps`. -/
structure Serves (store : Store) (maps : List MapRow) : Prop where
  states : ∀ opid, ∃ rows, store.statesOf opid = .ok rows
  attributes : ∀ opid, ∃ rows, store.attributesOf opid = .ok rows
  into : ∀ opid, ∃ rows, store.mapsInto opid = .ok rows ∧
    ∀ row, row ∈ rows ↔ row ∈ maps ∧ row.dst = opid
  clearedBy : ∀ opid, ∃ rows, store.mapsClearedBy opid = .ok rows ∧
    ∀ row, row ∈ rows ↔ row ∈ maps ∧ row.clr = opid

/-- The store answers questions about state rows from `states`, and takes a tag to match a pattern
if `hits` says so. The question for the rows that match a pattern may have no answer, since a
pattern can be too long. -/
structure ServesStates (store : Store) (hits : TagPattern → String → Bool)
    (states : List StateRow) : Prop where
  about : ∀ opid, store.statesOf opid = .ok (statesAbout opid states)
  tagged : ∀ pattern rows, store.statesTagged pattern = .ok rows →
    rows = states.filter fun row ↦ hits pattern row.fnTag

theorem ServesStates.resolve {store : Store} {hits : TagPattern → String → Bool}
    {states : List StateRow} (h : store.ServesStates hits states) (opid : OpId) :
    store.resolve opid = .ok (Resolution.ofStates opid states) := by
  refine bind_eq_ok.mpr ⟨_, h.about opid, ?_⟩
  simp [Resolution.ofStates, statesAbout, pure, Except.pure]

/-- A store without failures resolves every operation, to a span or to a finding. -/
theorem Serves.exists_resolve {store : Store} {maps : List MapRow} (h : store.Serves maps)
    (opid : OpId) : ∃ resolution, store.resolve opid = .ok resolution := by
  obtain ⟨rows, hrows⟩ := h.states opid
  exact ⟨_, bind_eq_ok.mpr ⟨rows, hrows, rfl⟩⟩

end Store

/-- A trace serves its map rows. -/
theorem Trace.serves (trace : Trace) : trace.toStore.Serves trace.maps.rows where
  states opid := ⟨_, rfl⟩
  attributes opid := ⟨_, rfl⟩
  into opid := ⟨_, rfl, fun row ↦ by simp [mapsInto]⟩
  clearedBy opid := ⟨_, rfl, fun row ↦ by simp [mapsClearedBy]⟩

/-- A trace serves its state rows. -/
theorem Trace.servesStates (trace : Trace) :
    trace.toStore.ServesStates TagPattern.matchesTag trace.states.rows where
  about _ := rfl
  tagged _ _ h := (Except.ok.inj h).symm

end OpTrace

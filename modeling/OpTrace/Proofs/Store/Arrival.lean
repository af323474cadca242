import OpTrace.Proofs.Store.Alike

/-!
# Rows that arrive one by one

A log takes in a row behind all rows whose number is not larger. Since the rows of a log are in
order, a search by halving finds this place. Rows that arrive one after the other therefore make
the log that one stable sort of all of them makes: the numbers ascend, rows of one number keep the
order of arrival, and no row is lost or doubled.

The rows of the three relations may arrive in any mixture. If the numbers of each relation are
different, then a trace depends on which rows arrived and not on when they did.
-/

namespace OpTrace

/-- Halves the stretch from `low` to `high` until no member of it is left, and keeps to the half
where the members cease to have the property. -/
def partitionBetween {α : Type} (holds : α → Bool) (l : List α) (low high : Nat) : Nat :=
  if low < high then
    let middle := low + (high - low) / 2
    if l[middle]?.any holds then partitionBetween holds l (middle + 1) high
    else partitionBetween holds l low middle
  else low
termination_by high - low

/-- The number of members at the front that have the property, if no member behind them has it. -/
def partitionPoint {α : Type} (holds : α → Bool) (l : List α) : Nat :=
  partitionBetween holds l 0 l.length

section PartitionPoint

variable {α : Type} {holds : α → Bool} {below above : List α}

theorem partitionBetween_append (hbelow : ∀ a ∈ below, holds a = true)
    (habove : ∀ a ∈ above, holds a = false) {low high : Nat} (hlow : low ≤ below.length)
    (hhigh : below.length ≤ high) :
    partitionBetween holds (below ++ above) low high = below.length := by
  fun_induction partitionBetween holds (below ++ above) low high with
  | case1 low high hlt middle hholds ih =>
    -- the member in the middle is at the front, so the place is behind it
    have hfront : middle < below.length := by
      by_contra hback
      rw [List.getElem?_append_right (Nat.not_lt.mp hback), Option.any_eq_true] at hholds
      obtain ⟨a, ha, hholds⟩ := hholds
      cases (habove a (List.mem_of_getElem? ha)).symm.trans hholds
    exact ih hfront hhigh
  | case2 low high hlt middle hholds ih =>
    have hback : below.length ≤ middle := by
      by_contra hfront
      have hfront : middle < below.length := Nat.not_le.mp hfront
      rw [List.getElem?_append_left hfront, List.getElem?_eq_getElem hfront] at hholds
      exact hholds (hbelow _ (List.getElem_mem hfront))
    exact ih hlow hback
  | case3 low high hle => omega

theorem partitionPoint_append (hbelow : ∀ a ∈ below, holds a = true)
    (habove : ∀ a ∈ above, holds a = false) :
    partitionPoint holds (below ++ above) = below.length :=
  partitionBetween_append hbelow habove (Nat.zero_le _) (by simp)

theorem insertIdx_length_append (below above : List α) (a : α) :
    (below ++ above).insertIdx below.length a = below ++ a :: above := by
  induction below with
  | nil => simp
  | cons first below ih => simp [ih]

end PartitionPoint

namespace Log

variable {ρ : Type} [Row ρ] {rows : List ρ}

theorem lt_of_mem_dropWhile (hordered : rows.Pairwise fun a b ↦ rowId a ≤ rowId b) {row : ρ} :
    ∀ other ∈ rows.dropWhile (rowId · ≤ rowId row), rowId row < rowId other := by
  induction rows with
  | nil => simp
  | cons first rest ih =>
    obtain ⟨hfirst, hrest⟩ := List.pairwise_cons.mp hordered
    by_cases hle : rowId first ≤ rowId row
    · rw [List.dropWhile_cons_of_pos (by simpa using hle)]
      exact ih hrest
    · rw [List.dropWhile_cons_of_neg (by simpa using hle)]
      have hlt : rowId row < rowId first := Int.not_le.mp hle
      exact List.forall_mem_cons.mpr
        ⟨hlt, fun other hother ↦ Int.lt_of_lt_of_le hlt (hfirst other hother)⟩

/-- A row goes between those whose number is not larger and those whose number is larger. -/
theorem exists_insertRow (hordered : rows.Pairwise fun a b ↦ rowId a ≤ rowId b) (row : ρ) :
    ∃ below above, rows = below ++ above ∧ insertRow row rows = below ++ row :: above ∧
      (∀ other ∈ below, rowId other ≤ rowId row) ∧ ∀ other ∈ above, rowId row < rowId other := by
  refine ⟨_, _, List.takeWhile_append_dropWhile.symm, rfl, fun other hother ↦ ?_,
    lt_of_mem_dropWhile hordered⟩
  simpa using List.mem_takeWhile_imp hother

/-- A search by halving finds the place of a row. -/
theorem insertIdx_partitionPoint (hordered : rows.Pairwise fun a b ↦ rowId a ≤ rowId b) (row : ρ) :
    rows.insertIdx (partitionPoint (rowId · ≤ rowId row) rows) row = insertRow row rows := by
  obtain ⟨below, above, rfl, hinsert, hbelow, habove⟩ := exists_insertRow hordered row
  have hplace : partitionPoint (rowId · ≤ rowId row) (below ++ above) = below.length := by
    apply partitionPoint_append
    · exact fun other hother ↦ decide_eq_true (hbelow other hother)
    · exact fun other hother ↦ decide_eq_false (Int.not_le.mpr (habove other hother))
  rw [hplace, hinsert, insertIdx_length_append]

theorem filter_insertRow_id (hordered : rows.Pairwise fun a b ↦ rowId a ≤ rowId b) (row : ρ)
    (id : Int) :
    (insertRow row rows).filter (rowId · = id) = (rows ++ [row]).filter (rowId · = id) := by
  obtain ⟨below, above, rfl, hinsert, -, habove⟩ := exists_insertRow hordered row
  rw [hinsert]
  by_cases hid : rowId row = id
  · have hnone : above.filter (rowId · = id) = [] := by
      refine List.filter_eq_nil_iff.mpr fun other hother ↦ ?_
      have := habove other hother
      simp only [decide_eq_true_eq]
      omega
    simp [List.filter_append, hid, hnone]
  · simp [List.filter_append, hid]

/-- Sorting and then taking in one more row sorts all rows. -/
theorem insertRow_sortRows (row : ρ) (rows : List ρ) :
    insertRow row (sortRows rows) = sortRows (rows ++ [row]) := by
  apply eq_of_filter_key_eq (pairwise_insertRow row (pairwise_sortRows rows)) (pairwise_sortRows _)
  intro id
  rw [filter_insertRow_id (pairwise_sortRows rows), filter_sortRows_id, List.filter_append,
    List.filter_append, filter_sortRows_id]

theorem insert_ofList (row : ρ) (rows : List ρ) :
    (ofList rows).insert row = ofList (rows ++ [row]) := by
  simp only [ofList, insert, Log.mk.injEq]
  exact insertRow_sortRows row rows

/-- The log has the rows that arrived, in the order of their numbers, and those of one number in
the order of arrival. A search by halving finds the place of any further row. -/
structure Keeps (log : Log ρ) (arrived : List ρ) : Prop where
  ordered : log.rows.Pairwise fun a b ↦ rowId a ≤ rowId b
  perm : log.rows.Perm arrived
  stable : ∀ id, log.rows.filter (rowId · = id) = arrived.filter (rowId · = id)
  place : ∀ row, log.rows.insertIdx (partitionPoint (rowId · ≤ rowId row) log.rows) row =
    (log.insert row).rows

theorem keeps_ofList (arrived : List ρ) : (ofList arrived).Keeps arrived where
  ordered := pairwise_sortRows arrived
  perm := perm_sortRows arrived
  stable := filter_sortRows_id arrived
  place := insertIdx_partitionPoint (pairwise_sortRows arrived)

end Log

/-- A row that arrives. -/
inductive Arrival where
  | ofState (row : StateRow)
  | ofAttribute (row : AttributeRow)
  | ofMap (row : MapRow)
  deriving DecidableEq, Repr

namespace Arrival

def state? : Arrival → Option StateRow
  | ofState row => some row
  | _ => none

def attribute? : Arrival → Option AttributeRow
  | ofAttribute row => some row
  | _ => none

def map? : Arrival → Option MapRow
  | ofMap row => some row
  | _ => none

end Arrival

/-- Takes in a row that arrives. -/
def Trace.receive (trace : Trace) : Arrival → Trace
  | .ofState row => trace.insertState row
  | .ofAttribute row => trace.insertAttribute row
  | .ofMap row => trace.insertMap row

/-- Rows that a trace is made from, and rows that arrive afterwards. -/
structure History where
  states : List StateRow
  attributes : List AttributeRow
  maps : List MapRow
  arrivals : List Arrival

namespace History

def trace (history : History) : Trace :=
  history.arrivals.foldl Trace.receive
    (.ofRows history.states history.attributes history.maps)

/-- All state rows in the order of arrival, and likewise the rows of the other relations. -/
def allStates (history : History) : List StateRow :=
  history.states ++ history.arrivals.filterMap Arrival.state?

@[inherit_doc allStates]
def allAttributes (history : History) : List AttributeRow :=
  history.attributes ++ history.arrivals.filterMap Arrival.attribute?

@[inherit_doc allStates]
def allMaps (history : History) : List MapRow :=
  history.maps ++ history.arrivals.filterMap Arrival.map?

/-- The histories have the same rows, which may have arrived in another order. -/
structure SameRows (history other : History) : Prop where
  states : history.allStates.Perm other.allStates
  attributes : history.allAttributes.Perm other.allAttributes
  maps : history.allMaps.Perm other.allMaps

/-- No two rows of a relation have the same number. -/
structure Distinct (history : History) : Prop where
  states : (history.allStates.map rowId).Nodup
  attributes : (history.allAttributes.map rowId).Nodup
  maps : (history.allMaps.map rowId).Nodup

/-- A row that arrives makes the trace of one row more. -/
theorem receive_ofRows (states : List StateRow) (attributes : List AttributeRow)
    (maps : List MapRow) (arrival : Arrival) :
    (Trace.ofRows states attributes maps).receive arrival =
      .ofRows (states ++ arrival.state?.toList) (attributes ++ arrival.attribute?.toList)
        (maps ++ arrival.map?.toList) := by
  cases arrival with
  | ofState row =>
    simp [Trace.receive, Trace.insertState, Trace.ofRows, Log.insert_ofList, Arrival.state?,
      Arrival.attribute?, Arrival.map?]
  | ofAttribute row =>
    simp [Trace.receive, Trace.insertAttribute, Trace.ofRows, Log.insert_ofList, Arrival.state?,
      Arrival.attribute?, Arrival.map?]
  | ofMap row =>
    simp [Trace.receive, Trace.insertMap, Trace.ofRows, Log.insert_ofList, Arrival.state?,
      Arrival.attribute?, Arrival.map?]

theorem filterMap_cons_toList {β : Type} (f : Arrival → Option β) (arrival : Arrival)
    (arrivals : List Arrival) :
    (arrival :: arrivals).filterMap f = (f arrival).toList ++ arrivals.filterMap f := by
  cases h : f arrival <;> simp [h]

/-- The trace is made from all rows at once. -/
theorem trace_eq (history : History) :
    history.trace = .ofRows history.allStates history.allAttributes history.allMaps := by
  obtain ⟨states, attributes, maps, arrivals⟩ := history
  simp only [trace, allStates, allAttributes, allMaps]
  induction arrivals generalizing states attributes maps with
  | nil => simp
  | cons arrival arrivals ih =>
    rw [List.foldl_cons, receive_ofRows, ih]
    simp only [filterMap_cons_toList, List.append_assoc]

/-- The trace at the end of a history is the one of all rows that arrived. Other histories of the
same rows, if these have different numbers, end in the same trace and give the same answers. -/
theorem trace_eq_of_sameRows (history : History) :
    history.trace = .ofRows history.allStates history.allAttributes history.allMaps ∧
      (history.trace.states.Keeps history.allStates ∧
        history.trace.attributes.Keeps history.allAttributes ∧
        history.trace.maps.Keeps history.allMaps) ∧
      ∀ other : History, other.SameRows history → history.Distinct →
        other.trace = history.trace ∧
          other.trace.toStore.Agree history.trace.toStore fun _ ↦ True := by
  refine ⟨history.trace_eq, ?_, fun other hsame hdistinct ↦ ?_⟩
  · rw [history.trace_eq]
    exact ⟨Log.keeps_ofList _, Log.keeps_ofList _, Log.keeps_ofList _⟩
  · have heq : other.trace = history.trace :=
      calc
        other.trace = .ofRows other.allStates other.allAttributes other.allMaps := other.trace_eq
        _ = .ofRows history.allStates history.allAttributes history.allMaps :=
          Trace.ofRows_eq_of_perm hsame.states hsame.attributes hsame.maps hdistinct.states
            hdistinct.attributes hdistinct.maps
        _ = history.trace := history.trace_eq.symm
    rw [heq]
    exact ⟨rfl, .refl _⟩

end History

namespace Shuffled

open Sample

def atOnce : History := { states, attributes, maps, arrivals := [] }

/-- The rows arrive one by one from the last to the first, those of the three relations mixed. -/
def oneByOne : History where
  states := []
  attributes := []
  maps := []
  arrivals := [.ofState ⟨header 4 40 "fsal_read", 3, .finish⟩,
    .ofMap ⟨header 2 20 "cfs_read", "calls", 2, 3, 1⟩, .ofState ⟨header 3 30 "cfs_read", 2, .init⟩,
    .ofAttribute ⟨header 2 20 "fsal_read", 3, "offset", "0"⟩,
    .ofState ⟨header 2 20 "fsal_write", 1, .init⟩, .ofMap ⟨header 1 10 "fsal_read", "calls", 3, 1, 1⟩,
    .ofAttribute ⟨header 1 10 "fsal_read", 3, "size", "4096"⟩,
    .ofState ⟨header 1 10 "FSAL_read", 3, .init⟩]

end Shuffled

theorem History.trace_eq_of_shuffled : Shuffled.oneByOne.trace = Shuffled.atOnce.trace := by
  have hsame : Shuffled.oneByOne.SameRows Shuffled.atOnce := ⟨by decide, by decide, by decide⟩
  have hdistinct : Shuffled.atOnce.Distinct := ⟨by decide, by decide, by decide⟩
  exact (Shuffled.atOnce.trace_eq_of_sameRows.2.2 _ hsame hdistinct).1

end OpTrace

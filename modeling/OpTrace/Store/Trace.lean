import OpTrace.Store.Basic

/-!
# Traces in memory

A `Log` holds the rows of one relation in the order of recording, and rows of equal number in the
order of arrival. It is made from rows in any order, or grows by one row at a time; a row that
arrives goes behind all rows whose number is not larger. A `Trace` is a log for each relation, and
every question about it has an answer.
-/

namespace OpTrace

/-- Rows in the order of recording. -/
structure Log (ρ : Type) [Row ρ] where
  rows : List ρ
  ordered : rows.Pairwise fun a b ↦ rowId a ≤ rowId b

namespace Log

variable {ρ : Type} [Row ρ]

def sortRows (rows : List ρ) : List ρ := rows.mergeSort fun a b ↦ rowId a ≤ rowId b

theorem pairwise_sortRows (rows : List ρ) :
    (sortRows rows).Pairwise fun a b ↦ rowId a ≤ rowId b := by
  have h := @List.pairwise_mergeSort ρ (fun a b ↦ decide (rowId a ≤ rowId b))
    (fun a b c hab hbc ↦ by simp at *; omega) (fun a b ↦ by simp; omega) rows
  simpa [sortRows] using h

def empty : Log ρ := ⟨[], .nil⟩

/-- The log of rows that arrived in the given order. -/
def ofList (rows : List ρ) : Log ρ := ⟨sortRows rows, pairwise_sortRows rows⟩

/-- Puts a row behind all rows whose number is not larger. -/
def insertRow (row : ρ) (rows : List ρ) : List ρ :=
  rows.takeWhile (rowId · ≤ rowId row) ++ row :: rows.dropWhile (rowId · ≤ rowId row)

theorem mem_insertRow {row other : ρ} {rows : List ρ} :
    other ∈ insertRow row rows ↔ other = row ∨ other ∈ rows := by
  have h : other ∈ rows ↔ other ∈ rows.takeWhile (rowId · ≤ rowId row) ∨
      other ∈ rows.dropWhile (rowId · ≤ rowId row) := by
    rw [← List.mem_append, List.takeWhile_append_dropWhile]
  simp only [insertRow, List.mem_append, List.mem_cons, h]
  grind

theorem pairwise_insertRow (row : ρ) {rows : List ρ}
    (h : rows.Pairwise fun a b ↦ rowId a ≤ rowId b) :
    (insertRow row rows).Pairwise fun a b ↦ rowId a ≤ rowId b := by
  induction rows with
  | nil => simp [insertRow]
  | cons first rest ih =>
    obtain ⟨hfirst, hrest⟩ := List.pairwise_cons.mp h
    by_cases hle : rowId first ≤ rowId row
    · have hcons : insertRow row (first :: rest) = first :: insertRow row rest := by
        simp [insertRow, hle]
      rw [hcons, List.pairwise_cons]
      refine ⟨fun other hother ↦ ?_, ih hrest⟩
      rcases mem_insertRow.mp hother with rfl | hmem
      · exact hle
      · exact hfirst other hmem
    · have hcons : insertRow row (first :: rest) = row :: first :: rest := by
        simp [insertRow, hle]
      rw [hcons, List.pairwise_cons]
      refine ⟨fun other hother ↦ ?_, h⟩
      rcases List.mem_cons.mp hother with rfl | hmem
      · omega
      · have := hfirst other hmem
        omega

def insert (row : ρ) (log : Log ρ) : Log ρ :=
  ⟨insertRow row log.rows, pairwise_insertRow row log.ordered⟩

@[simp] theorem rows_ofList (rows : List ρ) : (ofList rows).rows = sortRows rows := rfl

@[simp] theorem rows_insert (row : ρ) (log : Log ρ) :
    (log.insert row).rows = insertRow row log.rows := rfl

end Log

/-- A trace that is held in memory. -/
structure Trace where
  states : Log StateRow
  attributes : Log AttributeRow
  maps : Log MapRow

namespace Trace

def empty : Trace := ⟨.empty, .empty, .empty⟩

/-- The trace of rows that arrived in the given order. -/
def ofRows (states : List StateRow) (attributes : List AttributeRow) (maps : List MapRow) : Trace :=
  ⟨.ofList states, .ofList attributes, .ofList maps⟩

def size (trace : Trace) : Nat :=
  trace.states.rows.length + trace.attributes.rows.length + trace.maps.rows.length

def insertState (row : StateRow) (trace : Trace) : Trace :=
  { trace with states := trace.states.insert row }

def insertAttribute (row : AttributeRow) (trace : Trace) : Trace :=
  { trace with attributes := trace.attributes.insert row }

def insertMap (row : MapRow) (trace : Trace) : Trace :=
  { trace with maps := trace.maps.insert row }

def statesOf (trace : Trace) (opid : OpId) : List StateRow :=
  trace.states.rows.filter (·.opid = opid)

def statesTagged (trace : Trace) (pattern : TagPattern) : List StateRow :=
  trace.states.rows.filter fun row ↦ pattern.matchesTag row.fnTag

def attributesOf (trace : Trace) (opid : OpId) : List AttributeRow :=
  trace.attributes.rows.filter (·.opid = opid)

/-- The map rows into, from and cleared by an operation. -/
def mapsInto (trace : Trace) (opid : OpId) : List MapRow := trace.maps.rows.filter (·.dst = opid)

@[inherit_doc mapsInto]
def mapsFrom (trace : Trace) (opid : OpId) : List MapRow := trace.maps.rows.filter (·.src = opid)

@[inherit_doc mapsInto]
def mapsClearedBy (trace : Trace) (opid : OpId) : List MapRow :=
  trace.maps.rows.filter (·.clr = opid)

/-- Goes through operations and keeps the first appearance of each one that was not seen. -/
def firstAppearances (seen : List OpId) : List OpId → List OpId
  | [] => []
  | opid :: rest =>
    if opid ∈ seen then firstAppearances seen rest
    else opid :: firstAppearances (opid :: seen) rest

theorem mem_firstAppearances {seen opids : List OpId} {opid : OpId} :
    opid ∈ firstAppearances seen opids ↔ opid ∈ opids ∧ opid ∉ seen := by
  induction opids generalizing seen with
  | nil => simp [firstAppearances]
  | cons first rest ih =>
    simp only [firstAppearances]
    split <;> grind

theorem nodup_firstAppearances (seen opids : List OpId) : (firstAppearances seen opids).Nodup := by
  induction opids generalizing seen with
  | nil => exact .nil
  | cons first rest ih =>
    simp only [firstAppearances]
    split
    · exact ih seen
    · refine List.nodup_cons.mpr ⟨fun hfirst ↦ ?_, ih (first :: seen)⟩
      exact (mem_firstAppearances.mp hfirst).2 List.mem_cons_self

/-- The operations with a matching state row, by first appearance, inside a window. -/
def opidsTagged (trace : Trace) (pattern : TagPattern) (window : Window) : List OpId :=
  window.apply (firstAppearances [] ((trace.statesTagged pattern).map (·.opid)))

def toStore (trace : Trace) : Store where
  statesOf opid := .ok (trace.statesOf opid)
  statesTagged pattern := .ok (trace.statesTagged pattern)
  attributesOf opid := .ok (trace.attributesOf opid)
  mapsInto opid := .ok (trace.mapsInto opid)
  mapsFrom opid := .ok (trace.mapsFrom opid)
  mapsClearedBy opid := .ok (trace.mapsClearedBy opid)
  opidsTagged pattern window := .ok (trace.opidsTagged pattern window)
  sources := trace.maps.rows.map (·.src)
  mem_sources_of_mapsInto h hrow := by
    cases h
    exact List.mem_map_of_mem (List.mem_filter.mp hrow).1
  mem_sources_of_mapsClearedBy h hrow := by
    cases h
    exact List.mem_map_of_mem (List.mem_filter.mp hrow).1

end Trace

end OpTrace

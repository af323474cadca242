import OpTrace.Event.Marker
import OpTrace.Finding

/-!
# Nested intervals

The attributes of one operation, in the order of recording, split into intervals and plain data.
At most one interval is open at a time: a start opens it, and the next end closes it. A start that
comes while one is open leaves the earlier start unmatched, an end that comes while none is open
is orphaned, and an end that lies before its start gives no interval. All three are found and
left out.
-/

namespace OpTrace

/-- A part of an operation between a start marker and an end marker. -/
structure Interval where
  label : String
  start : Time
  finish : Time
  /-- row of the start marker -/
  startRow : Int
  /-- row of the end marker -/
  finishRow : Int
  deriving DecidableEq, Repr

def Interval.duration (interval : Interval) : Int := elapsed interval.start interval.finish

/-- What the attributes of an operation say. -/
structure Annotations where
  intervals : List Interval := []
  /-- names and values of the attributes that are no markers -/
  metadata : List (String × String) := []
  findings : Findings := []
  deriving DecidableEq, Repr

/-- A start marker that waits for its end. -/
structure OpenInterval where
  row : AttributeRow
  label : String
  deriving DecidableEq, Repr

/-- The annotations read so far, and the interval that is open. -/
structure Pairing extends Annotations where
  opened : Option OpenInterval := none
  deriving DecidableEq, Repr

namespace Pairing

def found (state : Pairing) (finding : Finding) : Pairing :=
  { state with findings := state.findings ++ [finding] }

/-- Leaves the open interval, if there is one, without an end. -/
def abandon (opid : OpId) (state : Pairing) : Pairing :=
  match state.opened with
  | none => state
  | some left => { state.found (.unmatchedStart opid left.row.id left.label) with opened := none }

/-- An interval without a label of its own is named by its number. -/
def nameOf (state : Pairing) (label : String) : String :=
  if label = "" then s!"interval {state.intervals.length + 1}" else label

def close (opid : OpId) (row : AttributeRow) (label : String) (state : Pairing) : Pairing :=
  match state.opened with
  | none => state.found (.orphanedEnd opid row.id label)
  | some left =>
    let label := state.nameOf left.label
    let state := { state with opened := none }
    if row.time < left.row.time then
      state.found (.invertedInterval opid label left.row.time row.time)
    else
      { state with
        intervals := state.intervals ++
          [{ label, start := left.row.time, finish := row.time,
             startRow := left.row.id, finishRow := row.id }] }

def see (opid : OpId) (state : Pairing) (row : AttributeRow) : Pairing :=
  match row.marker? with
  | none => { state with metadata := state.metadata ++ [(row.name, row.value)] }
  | some { edge := .start, label } => { state.abandon opid with opened := some { row, label } }
  | some { edge := .finish, label } => state.close opid row label

end Pairing

def attributesAbout (opid : OpId) (rows : List AttributeRow) : List AttributeRow :=
  (rows.filter (·.opid = opid)).mergeSort fun a b ↦ a.id ≤ b.id

/-- Reads the annotations of operation `opid` from attribute rows in any order. -/
def Annotations.ofAttributes (opid : OpId) (rows : List AttributeRow) : Annotations :=
  (((attributesAbout opid rows).foldl (Pairing.see opid) {}).abandon opid).toAnnotations

end OpTrace

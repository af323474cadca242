import Mathlib.Data.List.Indexes
import Mathlib.Data.List.Induction
import Mathlib.Data.List.ReduceOption
import OpTrace.Interval

/-!
# How markers pair

The markers among the attributes of an operation form a row with seams: one in front of the first
marker, one between any two that are next to each other, and one behind the last. What becomes of
the markers is decided at the seams. A start in front of a seam with an end behind it is an
interval, or an inverted one; a start that no end follows is unmatched, and an end that follows no
start is orphaned.

The annotations of an operation are what its seams say, in their order. Each marker is settled at
one seam, and each other attribute is plain data.
-/

namespace OpTrace

/-- A marker, with the attribute that spells it. -/
structure Mark where
  row : AttributeRow
  marker : Marker
  deriving DecidableEq, Repr

/-- The place between two markers that are next to each other. There is nothing in front of the
first marker and nothing behind the last. -/
structure Seam where
  before : Option Mark
  behind : Option Mark
  deriving DecidableEq, Repr

def marksOf (rows : List AttributeRow) : List Mark :=
  rows.filterMap fun row ↦ row.marker?.map (Mark.mk row)

def plainOf (rows : List AttributeRow) : List AttributeRow := rows.filter (·.marker?.isNone)

/-- The seams in front of markers. -/
def frontSeams (marks : List Mark) : List Seam :=
  List.zipWith Seam.mk (none :: marks.map some) (marks.map some)

def seams (marks : List Mark) : List Seam :=
  List.zipWith Seam.mk (none :: marks.map some) (marks.map some ++ [none])

/-- The interval between two markers. One without a label of its own has its number as its label. -/
def Mark.interval (number : Nat) (start finish : Mark) : Interval where
  label := if start.marker.label = "" then s!"interval {number}" else start.marker.label
  start := start.row.time
  finish := finish.row.time
  startRow := start.row.id
  finishRow := finish.row.id

namespace Seam

/-- The start marker in front of the seam. -/
def start? (seam : Seam) : Option Mark := seam.before.filter (·.marker.edge = .start)

/-- The end marker behind the seam. -/
def finish? (seam : Seam) : Option Mark := seam.behind.filter (·.marker.edge = .finish)

/-- A start and an end that is not earlier. -/
def pair? (seam : Seam) : Option (Mark × Mark) :=
  match seam.start?, seam.finish? with
  | some start, some finish =>
    if finish.row.time < start.row.time then none else some (start, finish)
  | _, _ => none

/-- What is found at the seam, where an interval would have the number. -/
def finding? (opid : OpId) (number : Nat) (seam : Seam) : Option Finding :=
  match seam.start?, seam.finish? with
  | some start, some finish =>
    if finish.row.time < start.row.time then
      some (.invertedInterval opid (start.interval number finish).label start.row.time
        finish.row.time)
    else none
  | some start, none => some (.unmatchedStart opid start.row.id start.marker.label)
  | none, some finish => some (.orphanedEnd opid finish.row.id finish.marker.label)
  | none, none => none

/-- The markers about which the seam decides. -/
def settled (seam : Seam) : List Mark := seam.start?.toList ++ seam.finish?.toList

end Seam

/-- The starts and ends that make intervals. -/
def pairsOf (seams : List Seam) : List (Mark × Mark) := seams.filterMap Seam.pair?

/-- The intervals at seams, numbered from 1. -/
def intervalsOf (seams : List Seam) : List Interval :=
  (pairsOf seams).mapIdx fun index pair ↦ pair.1.interval (index + 1) pair.2

/-- What is found at seams. The number at a seam is one more than there are intervals before. -/
def findingsOf (opid : OpId) (seams : List Seam) : Findings :=
  (seams.mapIdx fun index seam ↦
    seam.finding? opid ((pairsOf (seams.take index)).length + 1)).reduceOption

section Concat

variable (seams : List Seam) (seam : Seam)

theorem pairsOf_concat : pairsOf (seams ++ [seam]) = pairsOf seams ++ seam.pair?.toList := by
  simp only [pairsOf, List.filterMap_append]
  cases h : seam.pair? <;> simp [h]

theorem intervalsOf_concat : intervalsOf (seams ++ [seam]) =
    intervalsOf seams ++ (seam.pair?.map fun pair ↦
      pair.1.interval ((intervalsOf seams).length + 1) pair.2).toList := by
  rw [intervalsOf, pairsOf_concat, List.mapIdx_append]
  cases h : seam.pair? <;> simp [intervalsOf]

theorem findingsOf_concat (opid : OpId) : findingsOf opid (seams ++ [seam]) =
    findingsOf opid seams ++
      (seam.finding? opid ((intervalsOf seams).length + 1)).toList := by
  have hearlier : seams.mapIdx (fun index other ↦ other.finding? opid
        ((pairsOf ((seams ++ [seam]).take index)).length + 1)) =
      seams.mapIdx fun index other ↦
        other.finding? opid ((pairsOf (seams.take index)).length + 1) := by
    refine List.ext_getElem (by simp) fun index hindex _ ↦ ?_
    have hlt : index < seams.length := by simpa using hindex
    simp [List.take_append_of_le_length (Nat.le_of_lt hlt)]
  have hnumber : (pairsOf seams).length = (intervalsOf seams).length := by simp [intervalsOf]
  rw [findingsOf, List.mapIdx_append_one, hearlier, List.reduceOption_append, List.take_left,
    hnumber, List.reduceOption_singleton, findingsOf]

end Concat

theorem zipWith_concat (before behind : Option Mark) (marks : List Mark)
    (more : List (Option Mark)) :
    List.zipWith Seam.mk (before :: (marks.map some ++ more)) (marks.map some ++ [behind]) =
      List.zipWith Seam.mk (before :: marks.map some) (marks.map some) ++
        [⟨marks.getLast?.or before, behind⟩] := by
  induction marks generalizing before with
  | nil => simp
  | cons mark marks ih => simp [ih, List.getLast?_cons]

/-- One more marker makes one more seam, in front of it. -/
theorem frontSeams_concat (marks : List Mark) (last : Mark) :
    frontSeams (marks ++ [last]) = frontSeams marks ++ [⟨marks.getLast?, some last⟩] := by
  have h := zipWith_concat none (some last) marks [some last]
  simpa [frontSeams] using h

def Mark.opened (mark : Mark) : OpenInterval := ⟨mark.row, mark.marker.label⟩

namespace Pairing

variable {opid : OpId} {state : Pairing} {seam : Seam} {rows : List AttributeRow}

/-- Adds what a seam says, which closes or leaves the open interval. -/
def pass (opid : OpId) (seam : Seam) (state : Pairing) : Pairing where
  intervals := state.intervals ++ (seam.pair?.map fun pair ↦
    pair.1.interval (state.intervals.length + 1) pair.2).toList
  metadata := state.metadata
  findings := state.findings ++ (seam.finding? opid (state.intervals.length + 1)).toList
  opened := none

theorem abandon_eq_pass (hopened : state.opened = seam.start?.map Mark.opened)
    (hfinish : seam.finish? = none) : state.abandon opid = state.pass opid seam := by
  obtain ⟨annotations, opened⟩ := state
  obtain rfl : opened = seam.start?.map Mark.opened := hopened
  cases hstart : seam.start? <;>
    simp [abandon, pass, found, Seam.pair?, Seam.finding?, hstart, hfinish, Mark.opened]

theorem close_eq_pass (finish : Mark) (hopened : state.opened = seam.start?.map Mark.opened)
    (hfinish : seam.finish? = some finish) :
    state.close opid finish.row finish.marker.label = state.pass opid seam := by
  obtain ⟨annotations, opened⟩ := state
  obtain rfl : opened = seam.start?.map Mark.opened := hopened
  cases hstart : seam.start? with
  | none => simp [close, pass, found, Seam.pair?, Seam.finding?, hstart, hfinish]
  | some start =>
    by_cases hinverted : finish.row.time < start.row.time <;>
      simp [close, pass, found, nameOf, Seam.pair?, Seam.finding?, hstart, hfinish, Mark.opened,
        Mark.interval, hinverted]

/-- The state in which the attributes `rows` are taken in. What is open is the last marker, if it is
a start. -/
structure Follows (opid : OpId) (rows : List AttributeRow) (state : Pairing) : Prop where
  opened : ∀ behind,
    state.opened = (Seam.mk (marksOf rows).getLast? behind).start?.map Mark.opened
  metadata : state.metadata = (plainOf rows).map fun row ↦ (row.name, row.value)
  intervals : state.intervals = intervalsOf (frontSeams (marksOf rows))
  findings : state.findings = findingsOf opid (frontSeams (marksOf rows))

/-- An attribute that is no marker is plain data. -/
theorem Follows.plain (h : Follows opid rows state) {row : AttributeRow}
    (hrow : row.marker? = none) :
    Follows opid (rows ++ [row])
      { state with metadata := state.metadata ++ [(row.name, row.value)] } := by
  have hmarks : marksOf (rows ++ [row]) = marksOf rows := by simp [marksOf, hrow]
  have hplain : plainOf (rows ++ [row]) = plainOf rows ++ [row] := by simp [plainOf, hrow]
  refine ⟨?_, ?_, ?_, ?_⟩
  · rw [hmarks]
    exact h.opened
  · simp [hplain, h.metadata]
  · rw [hmarks]
    exact h.intervals
  · rw [hmarks]
    exact h.findings

/-- A marker adds what the seam in front of it says. -/
theorem Follows.mark (h : Follows opid rows state) {row : AttributeRow} {marker : Marker}
    (hrow : row.marker? = some marker) {next : Pairing}
    (hnext : next.toAnnotations =
      (state.pass opid ⟨(marksOf rows).getLast?, some ⟨row, marker⟩⟩).toAnnotations)
    (hopened : ∀ behind,
      next.opened = (Seam.mk (some ⟨row, marker⟩) behind).start?.map Mark.opened) :
    Follows opid (rows ++ [row]) next := by
  have hmarks : marksOf (rows ++ [row]) = marksOf rows ++ [⟨row, marker⟩] := by
    simp [marksOf, hrow]
  have hplain : plainOf (rows ++ [row]) = plainOf rows := by simp [plainOf, hrow]
  refine ⟨?_, ?_, ?_, ?_⟩
  · simpa [hmarks] using hopened
  · rw [hnext, hplain]
    exact h.metadata
  · rw [hnext, hmarks, frontSeams_concat, intervalsOf_concat, ← h.intervals]
    rfl
  · rw [hnext, hmarks, frontSeams_concat, findingsOf_concat, ← h.intervals, ← h.findings]
    rfl

theorem Follows.see (h : Follows opid rows state) (row : AttributeRow) :
    Follows opid (rows ++ [row]) (state.see opid row) := by
  unfold Pairing.see
  split
  · next hrow => exact h.plain hrow
  · next label hrow =>
    have habandon : state.abandon opid = state.pass opid ⟨_, some ⟨row, .start, label⟩⟩ :=
      abandon_eq_pass (h.opened _) rfl
    have hannotations := congrArg Pairing.toAnnotations habandon
    exact h.mark hrow hannotations fun _ ↦ rfl
  · next label hrow =>
    have hclose : state.close opid row label = state.pass opid ⟨_, some ⟨row, .finish, label⟩⟩ :=
      close_eq_pass ⟨row, .finish, label⟩ (h.opened _) rfl
    exact h.mark hrow (congrArg Pairing.toAnnotations hclose) fun _ ↦
      congrArg Pairing.opened hclose

end Pairing

/-- The annotations say of each attribute what it is by its place among the others. -/
structure Annotations.Settles (annotations : Annotations) (opid : OpId)
    (rows : List AttributeRow) : Prop where
  metadata : annotations.metadata = (plainOf rows).map fun row ↦ (row.name, row.value)
  intervals : annotations.intervals = intervalsOf (seams (marksOf rows))
  findings : annotations.findings = findingsOf opid (seams (marksOf rows))
  /-- each attribute is plain data or is settled at one seam -/
  places : (plainOf rows ++ ((seams (marksOf rows)).flatMap Seam.settled).map (·.row)).Perm rows
  /-- a seam with something to settle makes either an interval or a finding -/
  verdicts : ∀ seam ∈ seams (marksOf rows), ∀ number,
    seam.settled = [] ∧ seam.pair? = none ∧ seam.finding? opid number = none ∨
      seam.settled ≠ [] ∧ (seam.pair?.isSome = true ↔ seam.finding? opid number = none)

end OpTrace

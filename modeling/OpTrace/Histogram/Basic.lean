import OpTrace.Breakdown.Basic
import OpTrace.Decimal.Binary64
import OpTrace.Request

/-!
# Histograms

A histogram lists the durations of the operations of one tag. Its summary gives their number, sum,
range and mean, and three percentiles by nearest rank: the percentile `p` is the smallest duration
that at least `p` in a hundred rows do not exceed.
-/

namespace OpTrace

/-- The orders in which rows can be sorted by duration. -/
inductive SortOrder where
  /-- shortest first -/
  | ascending
  /-- longest first -/
  | descending
  deriving DecidableEq, Repr

/-- The duration of one operation. -/
structure HistogramRow where
  opid : OpId
  duration : Int
  deriving DecidableEq, Repr

/-- Sorts rows by duration; rows of equal duration stay in their order. -/
def SortOrder.sort (order : SortOrder) (rows : List HistogramRow) : List HistogramRow :=
  match order with
  | ascending => rows.mergeSort fun a b ↦ a.duration ≤ b.duration
  | descending => rows.mergeSort fun a b ↦ b.duration ≤ a.duration

/-- The durations of the operations of one tag. -/
structure Histogram where
  fnTag : String
  /-- how many operations were selected, with and without a span -/
  selected : Nat
  rows : List HistogramRow
  findings : Findings
  deriving DecidableEq, Repr

/-- The distribution of the durations. -/
structure Summary where
  count : Nat
  total : Int
  least : Int
  greatest : Int
  mean : Binary64
  p50 : Int
  p95 : Int
  p99 : Int
  deriving DecidableEq, Repr

/-- The place, counted from one, of the percentile `percent` among `count` sorted values. -/
def nearestRank (percent count : Nat) : Nat := max 1 (min count ((percent * count + 99) / 100))

/-- The value at the percentile among sorted values. -/
def percentile (sorted : List Int) (percent : Nat) : Int :=
  sorted.getD (nearestRank percent sorted.length - 1) 0

namespace Histogram

def sortedDurations (histogram : Histogram) : List Int :=
  (histogram.rows.map (·.duration)).mergeSort fun a b ↦ a ≤ b

def summary (histogram : Histogram) : Option Summary :=
  match histogram.sortedDurations with
  | [] => none
  | least :: others =>
    let sorted := least :: others
    let total := sorted.foldl (· + ·) 0
    some {
      count := sorted.length
      total
      least
      greatest := sorted.getLastD least
      mean := .ofFloat (Float.ofInt total / Float.ofNat sorted.length)
      p50 := percentile sorted 50
      p95 := percentile sorted 95
      p99 := percentile sorted 99 }

def pairs (histogram : Histogram) : List (String × Int) :=
  histogram.rows.map fun row ↦ (toString row.opid, row.duration)

end Histogram

/-- The breakdowns of the operations of one tag. -/
structure BreakdownHistogram where
  fnTag : String
  /-- how many operations were selected, with and without a span -/
  selected : Nat
  categories : List String
  rows : List Breakdown
  findings : Findings
  deriving DecidableEq, Repr

end OpTrace

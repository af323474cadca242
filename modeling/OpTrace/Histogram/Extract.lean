import OpTrace.Histogram.Basic

/-!
# Extracting histograms

Operations are selected by their tag, either all of them inside a window or a single one. All state
rows with a matching tag are read at once. An operation that these rows do not resolve is resolved
again from all its rows, since some of them may carry another tag. An operation without a complete
span is found and has no row, so there may be fewer rows than selected operations.
-/

namespace OpTrace

/-- What to extract. -/
structure HistogramQuery where
  /-- the pattern that selects operations -/
  fnTag : String
  /-- the only operation to select -/
  only : Option OpId := none
  window : Window := {}
  sort : Option SortOrder := none
  /-- break the durations down by category -/
  byCategory : Bool := false
  deriving DecidableEq, Repr

namespace HistogramQuery

/-- Options that exclude each other are refused: breakdowns are not sorted. -/
def validate (query : HistogramQuery) : RequestResult Unit :=
  if query.byCategory ∧ query.sort ≠ none then .error .sortedBreakdown else .ok ()

def pattern (query : HistogramQuery) : RequestResult TagPattern :=
  (TagPattern.ofText query.fnTag).mapError fun flaw ↦ .store (.invalidPattern query.fnTag flaw)

/-- Selects the one operation, if one of its rows carries a matching tag. -/
def selectOnly (query : HistogramQuery) (store : Store) (pattern : TagPattern) (opid : OpId) :
    RequestResult (List OpId) := do
  let states ← (store.statesOf opid).lift
  if states.any fun row ↦ pattern.matchesTag row.fnTag then return [opid]
  else throw (.insufficientData (.otherTag opid query.fnTag))

/-- Selects operations; there must be one at least. -/
def select (query : HistogramQuery) (store : Store) (pattern : TagPattern) :
    RequestResult (List OpId) := do
  let opids ← match query.only with
    | some opid => query.selectOnly store pattern opid
    | none => (store.opidsTagged pattern query.window).lift
  if opids = [] then throw (.insufficientData (.nothingSelected query.fnTag)) else return opids

end HistogramQuery

namespace Histogram

/-- Resolves an operation from the rows that were read at once, and otherwise from all its rows. -/
def resolveFrom (store : Store) (batch : List StateRow) (opid : OpId) : StoreResult Resolution :=
  match Resolution.ofStates opid batch with
  | .complete span => .ok (.complete span)
  | .incomplete _ => store.resolve opid

def resolveAll (store : Store) (batch : List StateRow) : List OpId → StoreResult (List Resolution)
  | [] => .ok []
  | opid :: opids => do
    let first ← resolveFrom store batch opid
    let rest ← resolveAll store batch opids
    return first :: rest

def rowOf? (resolution : Resolution) : Option HistogramRow :=
  resolution.span?.map fun span ↦ { opid := span.opid, duration := span.duration }

def arrange (sort : Option SortOrder) (rows : List HistogramRow) : List HistogramRow :=
  match sort with
  | some order => order.sort rows
  | none => rows

def extract (store : Store) (query : HistogramQuery) : RequestResult Histogram := do
  query.validate
  let pattern ← query.pattern
  let opids ← query.select store pattern
  let batch ← (store.statesTagged pattern).lift
  let resolutions ← (resolveAll store batch opids).lift
  return {
    fnTag := query.fnTag
    selected := opids.length
    rows := arrange query.sort (resolutions.filterMap rowOf?)
    findings := resolutions.filterMap (·.finding?) }

end Histogram

namespace BreakdownHistogram

def breakdownAll (store : Store) (table : CategoryTable) :
    List OpId → StoreResult (List (Option Breakdown × Findings))
  | [] => .ok []
  | opid :: opids => do
    let first ← Breakdown.ofOperation store table opid
    let rest ← breakdownAll store table opids
    return first :: rest

def extract (store : Store) (query : HistogramQuery) (table : CategoryTable) :
    RequestResult BreakdownHistogram := do
  query.validate
  let pattern ← query.pattern
  let opids ← query.select store pattern
  let answers ← (breakdownAll store table opids).lift
  return {
    fnTag := query.fnTag
    selected := opids.length
    categories := table.names
    rows := answers.filterMap (·.1)
    findings := (answers.map (·.2)).flatten }

end BreakdownHistogram

end OpTrace

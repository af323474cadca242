import OpTrace.CallTree.Basic
import OpTrace.Decimal.Text
import OpTrace.Histogram.Basic
import OpTrace.Text.Column

/-!
# Reports for a reader

The text form of a result is a headline, a table or an outline between rules, and a count. A call
tree is outlined by following it from its root: each operation is followed by its intervals and
then by the operations attached under it, two blanks deeper. An operation that is attached under
several parents is listed under each of them.
-/

namespace OpTrace

def rule : String := String.ofList (List.replicate 41 '─')

def joinLines (lines : List String) : String := String.join (lines.map (· ++ "\n"))

def completeness (rows selected : Nat) : String :=
  s!"{rows} of {selected} selected opid(s) complete"

def Summary.line (summary : Summary) : String :=
  s!"min {summary.least} us, max {summary.greatest} us, mean {summary.mean.fixed 1} us, " ++
    s!"p50 {summary.p50} us, p95 {summary.p95} us, p99 {summary.p99} us"

def Histogram.toText (histogram : Histogram) : String :=
  let line (opid duration : String) := alignRight 12 opid ++ " " ++ alignRight 14 duration
  joinLines <|
    [histogram.fnTag ++ " time per opid", rule, line "opid" "time (us)"] ++
      histogram.rows.map (fun row ↦ line (toString row.opid) (toString row.duration)) ++
      [rule, completeness histogram.rows.length histogram.selected] ++
      (histogram.summary.map Summary.line).toList

def BreakdownHistogram.toText (histogram : BreakdownHistogram) : String :=
  let line (opid total : String) (others : List String) :=
    alignRight 12 opid ++ " " ++ alignRight 10 total ++
      String.join (others.map fun other ↦ " " ++ alignRight 8 other)
  joinLines <|
    [histogram.fnTag ++ " sub-module time per opid (us)", rule,
      line "opid" "total" (histogram.categories ++ ["other"])] ++
      histogram.rows.map (fun row ↦
        line (toString row.total.opid) (toString row.total.duration)
          (row.buckets.map (fun bucket ↦ toString bucket.duration) ++
            [toString row.uncategorised])) ++
      [rule, completeness histogram.rows.length histogram.selected]

def Breakdown.toText (breakdown : Breakdown) : String :=
  let total := breakdown.total
  let line (name : String) (duration : Int) :=
    alignLeft 12 name ++ " " ++ alignRight 10 (toString duration) ++ " us"
  joinLines <|
    [s!"opid {total.opid} ({total.fnTag}): {total.duration} us", rule] ++
      breakdown.buckets.map (fun bucket ↦
        line bucket.name bucket.duration ++ s!"  ({bucket.contributors} contributor(s))") ++
      [line "uncategorised" breakdown.uncategorised]

namespace CallTree

/-- The line of an operation, and below it the lines of its intervals. -/
def headlines (tree : CallTree) (depth : Nat) (opid : OpId) : List String :=
  match tree.operation? opid with
  | none => []
  | some operation =>
    (blanks (2 * depth) ++
      s!"{operation.span.fnTag} [{operation.span.opid}] {operation.span.duration} us") ::
    (operation.intervals.filterMap tree.node?).map fun node ↦
      blanks (2 * depth + 2) ++ s!"- {node.label} {node.duration} us"

/-- The lines of an operation at some depth and of those below it, down to `levels` levels. -/
def outlineFrom (tree : CallTree) : Nat → Nat → OpId → List String
  | 0, _, _ => []
  | levels + 1, depth, opid =>
    tree.headlines depth opid ++
      (tree.childrenOf opid).flatMap (outlineFrom tree levels (depth + 1))

/-- The outline of the tree. It has no more levels than operations, since nothing is attached below
itself. -/
def outline (tree : CallTree) : List String := tree.outlineFrom tree.operations.length 0 tree.root

def toText (tree : CallTree) : String :=
  joinLines <|
    tree.outline ++
      [rule, s!"{tree.operations.length} operation(s), {tree.nodes.length} node(s), " ++
        s!"{tree.edges.length} edge(s)"]

end CallTree

/-- What is said of findings beside a report; nothing if there are none. -/
def Findings.toText (findings : Findings) : String :=
  if findings = [] then ""
  else
    joinLines <|
      findings.map (fun finding ↦ "warning: " ++ finding.message) ++
        [s!"{findings.length} diagnostic(s), {findings.discardedSpans} sample(s) discarded"]

end OpTrace

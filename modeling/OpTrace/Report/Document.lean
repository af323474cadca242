import OpTrace.CallTree.Basic
import OpTrace.Histogram.Basic
import OpTrace.Json.Basic

/-!
# Results as documents

Every result has a written form that keeps all of it. A document names its format and the kind of
its result in front of the result itself, so documents of different kinds differ.
-/

namespace OpTrace

def Missing.name : Missing → String
  | init => "init"
  | finish => "finish"
  | both => "both"

def Finding.toJson : Finding → Json
  | incompleteSpan opid missing =>
    .obj [("kind", .str "incomplete_span"), ("opid", .int opid), ("missing", .str missing.name)]
  | invertedSpan opid start finish =>
    .obj [("kind", .str "inverted_span"), ("opid", .int opid), ("start", .int start),
      ("end", .int finish)]
  | unmatchedStart opid row label =>
    .obj [("kind", .str "unmatched_interval_start"), ("opid", .int opid), ("attr_id", .int row),
      ("label", .str label)]
  | orphanedEnd opid row label =>
    .obj [("kind", .str "orphaned_interval_end"), ("opid", .int opid), ("attr_id", .int row),
      ("label", .str label)]
  | invertedInterval opid label start finish =>
    .obj [("kind", .str "inverted_interval"), ("opid", .int opid), ("label", .str label),
      ("start", .int start), ("end", .int finish)]
  | cycleSkipped map src attach =>
    .obj [("kind", .str "cycle_skipped"), ("map_id", .int map), ("src_opid", .int src),
      ("attach_opid", .int attach)]

def Findings.toJson (findings : Findings) : Json := Json.list Finding.toJson findings

def Span.toJson (span : Span) : Json :=
  .obj ([("opid", .int span.opid), ("fn_tag", .str span.fnTag)] ++
    Json.optional "sm_tag" .str span.smTag ++
    [("start", .int span.start), ("end", .int span.finish)])

def LedgerKey.toJson (key : LedgerKey) : Json :=
  .obj [("sm_tag", .str key.smTag), ("opid", .int key.opid)]

/-- The fields that tell what became of a descendant's time. -/
def Outcome.fields : Outcome → List (String × Json)
  | counted category => [("outcome", .str "counted"), ("category", .str category)]
  | duplicate category matched =>
    [("outcome", .str "duplicate"), ("category", .str category), ("matched", matched.toJson)]
  | uncategorised => [("outcome", .str "uncategorised")]

def Attribution.toJson (attribution : Attribution) : Json :=
  .obj ([("opid", .int attribution.opid), ("map_id", .int attribution.map),
      ("dst_opid", .int attribution.dst), ("clr_opid", .int attribution.clr)] ++
    Json.optional "sm_tag" .str attribution.smTag ++
    ("duration", .int attribution.duration) :: attribution.outcome.fields)

def Bucket.toJson (bucket : Bucket) : Json :=
  .obj [("name", .str bucket.name), ("duration", .int bucket.duration),
    ("contributors", .int bucket.contributors)]

def Breakdown.toJson (breakdown : Breakdown) : Json :=
  .obj [("total", breakdown.total.toJson), ("buckets", Json.list Bucket.toJson breakdown.buckets),
    ("uncategorised", .int breakdown.uncategorised),
    ("attributions", Json.list Attribution.toJson breakdown.attributions)]

def HistogramRow.toJson (row : HistogramRow) : Json :=
  .obj [("opid", .int row.opid), ("duration", .int row.duration)]

def Histogram.toJson (histogram : Histogram) : Json :=
  .obj [("fn_tag", .str histogram.fnTag), ("selected", .int histogram.selected),
    ("rows", Json.list HistogramRow.toJson histogram.rows),
    ("diagnostics", histogram.findings.toJson)]

def Summary.toJson (summary : Summary) : Json :=
  .obj [("count", .int summary.count), ("total", .int summary.total), ("min", .int summary.least),
    ("max", .int summary.greatest), ("mean", .real summary.mean), ("p50", .int summary.p50),
    ("p95", .int summary.p95), ("p99", .int summary.p99)]

def BreakdownHistogram.toJson (histogram : BreakdownHistogram) : Json :=
  .obj [("fn_tag", .str histogram.fnTag), ("selected", .int histogram.selected),
    ("categories", Json.list .str histogram.categories),
    ("rows", Json.list Breakdown.toJson histogram.rows),
    ("diagnostics", histogram.findings.toJson)]

def NodeKind.name : NodeKind → String
  | init => "init"
  | finish => "finish"
  | interval => "interval"

def Json.pair (pair : String × String) : Json := .arr [.str pair.1, .str pair.2]

def Node.toJson (node : Node) : Json :=
  .obj ([("id", .int node.id), ("opid", .int node.opid), ("kind", .str node.kind.name),
      ("label", .str node.label), ("start", .int node.start), ("end", .int node.finish)] ++
    if node.metadata = [] then [] else [("attributes", Json.list Json.pair node.metadata)])

def Edge.toJson (edge : Edge) : Json :=
  .obj ([("from", .int edge.source), ("to", .int edge.target)] ++
    Json.optional "duration" .int edge.duration)

def Operation.toJson (operation : Operation) : Json :=
  .obj [("span", operation.span.toJson), ("parent", Json.nullable .int operation.parent),
    ("init", .int operation.init), ("finish", .int operation.finish),
    ("intervals", Json.list (fun (id : NodeId) ↦ .int id) operation.intervals)]

def CallTree.toJson (tree : CallTree) : Json :=
  .obj [("root", .int tree.root), ("nodes", Json.list Node.toJson tree.nodes),
    ("edges", Json.list Edge.toJson tree.edges),
    ("operations", Json.list Operation.toJson tree.operations),
    ("diagnostics", tree.findings.toJson)]

/-- A result that is written as a document of its own. -/
inductive Report where
  | histogram (histogram : Histogram)
  | breakdownHistogram (histogram : BreakdownHistogram)
  | breakdown (breakdown : Breakdown) (findings : Findings)
  | callTree (tree : CallTree)
  deriving DecidableEq, Repr

namespace Report

def kind : Report → String
  | histogram _ => "histogram"
  | breakdownHistogram _ => "breakdown_histogram"
  | breakdown _ _ => "breakdown"
  | callTree _ => "call_tree"

def payload : Report → List (String × Json)
  | histogram h => ("histogram", h.toJson) :: Json.optional "summary" Summary.toJson h.summary
  | breakdownHistogram h => [("histogram", h.toJson)]
  | breakdown b findings => [("breakdown", b.toJson), ("diagnostics", findings.toJson)]
  | callTree tree => [("tree", tree.toJson)]

def document (report : Report) : Json :=
  .obj ([("version", .str "0.1.0"), ("format", .str "perfc-trace-json-v1"),
    ("kind", .str report.kind)] ++ report.payload)

end Report

end OpTrace

import OpTrace.Proofs.Json.Value
import OpTrace.Report.Document

/-!
# Results read from their documents

The written form of a result leaves a field out where a tag, a duration or the attributes are
missing, tells findings and outcomes apart by a word in one field, and writes the fields of an
outcome among those of the record that it belongs to. None of this loses anything. Each written form
has a reader, which takes the value of a document and never its order of fields, and each record is
read back as it was.

The readers are put together as the written forms are: a form is readable because its parts are. For
documents it follows that two results, of one kind or of two, never have documents of one value.
-/

namespace OpTrace

open Json.Value

def Missing.ofName? : String → Option Missing
  | "init" => some .init
  | "finish" => some .finish
  | "both" => some .both
  | _ => none

theorem Missing.ofName?_name (missing : Missing) : ofName? missing.name = some missing := by
  cases missing <;> rfl

def Finding.ofValue? (value : Json.Value) : Option Finding := do
  let opid := value.required? "opid" int?
  let label := value.required? "label" text?
  let start := value.required? "start" int?
  let finish := value.required? "end" int?
  match ← value.required? "kind" text? with
  | "incomplete_span" =>
    return .incompleteSpan (← opid) (← Missing.ofName? (← value.required? "missing" text?))
  | "inverted_span" => return .invertedSpan (← opid) (← start) (← finish)
  | "unmatched_interval_start" =>
    return .unmatchedStart (← opid) (← value.required? "attr_id" int?) (← label)
  | "orphaned_interval_end" =>
    return .orphanedEnd (← opid) (← value.required? "attr_id" int?) (← label)
  | "inverted_interval" => return .invertedInterval (← opid) (← label) (← start) (← finish)
  | "cycle_skipped" =>
    return .cycleSkipped (← value.required? "map_id" int?) (← value.required? "src_opid" int?)
      (← value.required? "attach_opid" int?)
  | _ => none

theorem Finding.readable_toJson : Json.Readable Finding.toJson Finding.ofValue? where
  distinct finding := by cases finding <;> simp [toJson]
  read_write finding := by
    cases finding <;> simp [toJson, ofValue?, List.lookup_cons, Missing.ofName?_name]

def Findings.ofValue? (value : Json.Value) : Option Findings := value.list? Finding.ofValue?

theorem Findings.readable_toJson : Json.Readable Findings.toJson Findings.ofValue? :=
  Finding.readable_toJson.list

def Span.ofValue? (value : Json.Value) : Option Span := do
  return {
    opid := ← value.required? "opid" int?
    fnTag := ← value.required? "fn_tag" text?
    smTag := ← value.optional? "sm_tag" text?
    start := ← value.required? "start" int?
    finish := ← value.required? "end" int? }

-- An absent tag is an absent field; an empty tag is a field with an empty text.
theorem Span.readable_toJson : Json.Readable Span.toJson Span.ofValue? where
  distinct span := by
    obtain ⟨opid, fnTag, _ | smTag, start, finish⟩ := span <;>
      simp [toJson, Json.optional]
  read_write span := by
    obtain ⟨opid, fnTag, _ | smTag, start, finish⟩ := span <;>
      simp [toJson, ofValue?, Json.optional, List.lookup_cons]

def LedgerKey.ofValue? (value : Json.Value) : Option LedgerKey := do
  return { smTag := ← value.required? "sm_tag" text?, opid := ← value.required? "opid" int? }

theorem LedgerKey.readable_toJson : Json.Readable LedgerKey.toJson LedgerKey.ofValue? where
  distinct key := by simp [toJson]
  read_write key := by simp [toJson, ofValue?, List.lookup_cons]

/-- Reads an outcome from the record that it belongs to. -/
def Outcome.ofValue? (value : Json.Value) : Option Outcome := do
  match ← value.required? "outcome" text? with
  | "counted" => return .counted (← value.required? "category" text?)
  | "duplicate" =>
    return .duplicate (← value.required? "category" text?)
      (← value.required? "matched" LedgerKey.ofValue?)
  | "uncategorised" => return .uncategorised
  | _ => none

def Attribution.ofValue? (value : Json.Value) : Option Attribution := do
  return {
    opid := ← value.required? "opid" int?
    map := ← value.required? "map_id" int?
    dst := ← value.required? "dst_opid" int?
    clr := ← value.required? "clr_opid" int?
    smTag := ← value.optional? "sm_tag" text?
    duration := ← value.required? "duration" int?
    outcome := ← Outcome.ofValue? value }

-- The key that an outcome was matched with has a tag and an operation too, but in an object of its
-- own. No field of an outcome has the name of a field of the record.
theorem Attribution.readable_toJson :
    Json.Readable Attribution.toJson Attribution.ofValue? where
  distinct attribution := by
    obtain ⟨opid, map, dst, clr, _ | smTag, duration, outcome⟩ := attribution <;>
      cases outcome <;>
      simp [toJson, Outcome.fields, Json.optional, LedgerKey.readable_toJson.distinct]
  read_write attribution := by
    obtain ⟨opid, map, dst, clr, _ | smTag, duration, outcome⟩ := attribution <;>
      cases outcome <;>
      simp [toJson, Outcome.fields, ofValue?, Outcome.ofValue?, Json.optional,
        List.lookup_cons, LedgerKey.readable_toJson.read_write]

def Bucket.ofValue? (value : Json.Value) : Option Bucket := do
  return {
    name := ← value.required? "name" text?
    duration := ← value.required? "duration" int?
    contributors := ← value.required? "contributors" nat? }

theorem Bucket.readable_toJson : Json.Readable Bucket.toJson Bucket.ofValue? where
  distinct bucket := by simp [toJson]
  read_write bucket := by simp [toJson, ofValue?, List.lookup_cons]

def Breakdown.ofValue? (value : Json.Value) : Option Breakdown := do
  return {
    total := ← value.required? "total" Span.ofValue?
    buckets := ← value.required? "buckets" (list? Bucket.ofValue?)
    uncategorised := ← value.required? "uncategorised" int?
    attributions := ← value.required? "attributions" (list? Attribution.ofValue?) }

theorem Breakdown.readable_toJson : Json.Readable Breakdown.toJson Breakdown.ofValue? where
  distinct breakdown := by
    simp [toJson, Span.readable_toJson.distinct, Bucket.readable_toJson.list.distinct,
      Attribution.readable_toJson.list.distinct]
  read_write breakdown := by
    simp [toJson, ofValue?, List.lookup_cons, Span.readable_toJson.read_write,
      Bucket.readable_toJson.list.read_write, Attribution.readable_toJson.list.read_write]

def HistogramRow.ofValue? (value : Json.Value) : Option HistogramRow := do
  return { opid := ← value.required? "opid" int?, duration := ← value.required? "duration" int? }

theorem HistogramRow.readable_toJson :
    Json.Readable HistogramRow.toJson HistogramRow.ofValue? where
  distinct row := by simp [toJson]
  read_write row := by simp [toJson, ofValue?, List.lookup_cons]

def Histogram.ofValue? (value : Json.Value) : Option Histogram := do
  return {
    fnTag := ← value.required? "fn_tag" text?
    selected := ← value.required? "selected" nat?
    rows := ← value.required? "rows" (list? HistogramRow.ofValue?)
    findings := ← value.required? "diagnostics" Findings.ofValue? }

theorem Histogram.readable_toJson : Json.Readable Histogram.toJson Histogram.ofValue? where
  distinct histogram := by
    simp [toJson, HistogramRow.readable_toJson.list.distinct, Findings.readable_toJson.distinct]
  read_write histogram := by
    simp [toJson, ofValue?, List.lookup_cons,
      HistogramRow.readable_toJson.list.read_write, Findings.readable_toJson.read_write]

theorem Summary.distinct_toJson (summary : Summary) : summary.toJson.Distinct := by
  simp [toJson]

def BreakdownHistogram.ofValue? (value : Json.Value) : Option BreakdownHistogram := do
  return {
    fnTag := ← value.required? "fn_tag" text?
    selected := ← value.required? "selected" nat?
    categories := ← value.required? "categories" (list? text?)
    rows := ← value.required? "rows" (list? Breakdown.ofValue?)
    findings := ← value.required? "diagnostics" Findings.ofValue? }

theorem BreakdownHistogram.readable_toJson :
    Json.Readable BreakdownHistogram.toJson BreakdownHistogram.ofValue? where
  distinct histogram := by
    simp [toJson, Json.readable_str.list.distinct, Breakdown.readable_toJson.list.distinct,
      Findings.readable_toJson.distinct]
  read_write histogram := by
    simp [toJson, ofValue?, List.lookup_cons, Json.readable_str.list.read_write,
      Breakdown.readable_toJson.list.read_write, Findings.readable_toJson.read_write]

def NodeKind.ofName? : String → Option NodeKind
  | "init" => some .init
  | "finish" => some .finish
  | "interval" => some .interval
  | _ => none

theorem NodeKind.ofName?_name (kind : NodeKind) : ofName? kind.name = some kind := by
  cases kind <;> rfl

def Json.Value.pair? : Json.Value → Option (String × String)
  | arr [.str name, .str value] => some (name, value)
  | _ => none

theorem Json.readable_pair : Json.Readable Json.pair Json.Value.pair? where
  distinct pair := by simp [Json.pair]
  read_write pair := by simp [Json.pair, Json.Value.pair?]

def Node.ofValue? (value : Json.Value) : Option Node := do
  return {
    id := ← value.required? "id" nat?
    opid := ← value.required? "opid" int?
    kind := ← NodeKind.ofName? (← value.required? "kind" text?)
    label := ← value.required? "label" text?
    start := ← value.required? "start" int?
    finish := ← value.required? "end" int?
    metadata := (← value.optional? "attributes" (list? pair?)).getD [] }

-- A node without attributes has no field for them, so an absent field stands for the empty list
-- and for nothing else.
theorem Node.readable_toJson : Json.Readable Node.toJson Node.ofValue? where
  distinct node := by
    obtain ⟨id, opid, kind, label, start, finish, _ | ⟨pair, pairs⟩⟩ := node <;>
      simp [toJson, Json.readable_pair.list.distinct]
  read_write node := by
    obtain ⟨id, opid, kind, label, start, finish, _ | ⟨pair, pairs⟩⟩ := node <;>
      simp [toJson, ofValue?, List.lookup_cons, NodeKind.ofName?_name,
        Json.readable_pair.list.read_write]

def Edge.ofValue? (value : Json.Value) : Option Edge := do
  return {
    source := ← value.required? "from" nat?
    target := ← value.required? "to" nat?
    duration := ← value.optional? "duration" int? }

theorem Edge.readable_toJson : Json.Readable Edge.toJson Edge.ofValue? where
  distinct edge := by
    obtain ⟨source, target, _ | duration⟩ := edge <;>
      simp [toJson, Json.optional]
  read_write edge := by
    obtain ⟨source, target, _ | duration⟩ := edge <;>
      simp [toJson, ofValue?, Json.optional, List.lookup_cons]

def Operation.ofValue? (value : Json.Value) : Option Operation := do
  return {
    span := ← value.required? "span" Span.ofValue?
    parent := ← value.required? "parent" (nullable? int?)
    init := ← value.required? "init" nat?
    finish := ← value.required? "finish" nat?
    intervals := ← value.required? "intervals" (list? nat?) }

theorem Operation.readable_toJson : Json.Readable Operation.toJson Operation.ofValue? where
  distinct operation := by
    obtain ⟨span, _ | parent, init, finish, intervals⟩ := operation <;>
      simp [toJson, Json.nullable, Span.readable_toJson.distinct,
        Json.readable_nat.list.distinct]
  read_write operation := by
    obtain ⟨span, _ | parent, init, finish, intervals⟩ := operation <;>
      simp [toJson, ofValue?, nullable?, List.lookup_cons, Json.nullable,
        Span.readable_toJson.read_write, Json.readable_nat.list.read_write]

def CallTree.ofValue? (value : Json.Value) : Option CallTree := do
  return {
    root := ← value.required? "root" int?
    nodes := ← value.required? "nodes" (list? Node.ofValue?)
    edges := ← value.required? "edges" (list? Edge.ofValue?)
    operations := ← value.required? "operations" (list? Operation.ofValue?)
    findings := ← value.required? "diagnostics" Findings.ofValue? }

theorem CallTree.readable_toJson : Json.Readable CallTree.toJson CallTree.ofValue? where
  distinct tree := by
    simp [toJson, Node.readable_toJson.list.distinct, Edge.readable_toJson.list.distinct,
      Operation.readable_toJson.list.distinct, Findings.readable_toJson.distinct]
  read_write tree := by
    simp [toJson, ofValue?, List.lookup_cons, Node.readable_toJson.list.read_write,
      Edge.readable_toJson.list.read_write, Operation.readable_toJson.list.read_write,
      Findings.readable_toJson.read_write]

namespace Report

def ofValue? (value : Json.Value) : Option Report := do
  match ← value.required? "kind" text? with
  | "histogram" => return .histogram (← value.required? "histogram" Histogram.ofValue?)
  | "breakdown_histogram" =>
    return .breakdownHistogram (← value.required? "histogram" BreakdownHistogram.ofValue?)
  | "breakdown" =>
    return .breakdown (← value.required? "breakdown" Breakdown.ofValue?)
      (← value.required? "diagnostics" Findings.ofValue?)
  | "call_tree" => return .callTree (← value.required? "tree" CallTree.ofValue?)
  | _ => none

-- The summary of a histogram adds a field and is not read: the rows say it already.
theorem readable_document : Json.Readable document ofValue? where
  distinct report := by
    cases report with
    | histogram h =>
      cases hsummary : h.summary <;>
        simp [document, payload, kind, Json.optional, hsummary,
          Histogram.readable_toJson.distinct, Summary.distinct_toJson]
    | breakdownHistogram h =>
      simp [document, payload, kind, BreakdownHistogram.readable_toJson.distinct]
    | breakdown b findings =>
      simp [document, payload, kind, Breakdown.readable_toJson.distinct,
        Findings.readable_toJson.distinct]
    | callTree tree =>
      simp [document, payload, kind, CallTree.readable_toJson.distinct]
  read_write report := by
    cases report with
    | histogram h =>
      simp [document, payload, kind, ofValue?, List.lookup_cons,
        Histogram.readable_toJson.read_write]
    | breakdownHistogram h =>
      simp [document, payload, kind, ofValue?, List.lookup_cons,
        BreakdownHistogram.readable_toJson.read_write]
    | breakdown b findings =>
      simp [document, payload, kind, ofValue?, List.lookup_cons,
        Breakdown.readable_toJson.read_write, Findings.readable_toJson.read_write]
    | callTree tree =>
      simp [document, payload, kind, ofValue?, List.lookup_cons,
        CallTree.readable_toJson.read_write]

/-- A document loses nothing: no field of it stands in the way of another, the result can be read
from its value, and any other result, of the same kind or not, has a document of another value. -/
theorem document_lossless (report : Report) :
    report.document.Distinct ∧ ofValue? report.document.value = some report ∧
      ∀ other : Report, other.document.value = report.document.value ↔ other = report :=
  ⟨readable_document.distinct report, readable_document.read_write report,
    fun _ ↦ readable_document.value_inj⟩

end Report

end OpTrace

import OpTrace.CallTree.Build
import OpTrace.CommandLine.Basic
import OpTrace.CommandLine.Failure
import OpTrace.Json.Printer
import OpTrace.Report.Chart
import OpTrace.Report.Csv
import OpTrace.Report.Document
import OpTrace.Report.Dot
import OpTrace.Report.Text
import OpTrace.Store.Database

/-!
# Answering an invocation

An invocation is answered with a report to show, perhaps a file to write, and findings to mention.
What excludes an answer is noticed in a fixed order: first what is wrong with the request itself,
then the files it names, then the trace.
-/

namespace OpTrace

/-- The files that an invocation reads. -/
structure Resources where
  database : Except DatabaseError Database
  /-- the text of the file of categories that it names -/
  categories : Except FileError String

/-- A file to be written. -/
structure OutputFile where
  path : String
  content : String
  deriving DecidableEq, Repr

/-- What an invocation comes to. -/
structure Answer where
  report : String
  file : Option OutputFile
  findings : Findings
  deriving DecidableEq, Repr

namespace Resources

def store (resources : Resources) (path : String) : Except Failure Store :=
  match resources.database with
  | .ok db => .ok db.toStore
  | .error error => .error (.database path error)

/-- The table of categories: that of the file, if one is named. -/
def table (resources : Resources) (path : Option String) : Except Failure CategoryTable :=
  match path, resources.categories with
  | none, _ => .ok .standard
  | some path, .error error => .error (.categoriesUnread path error)
  | some path, .ok source => (CategoryTable.ofText source).mapError (.categoriesUnfit path)

end Resources

def Json.toReport (json : Json) : String := json.pretty ++ "\n"

namespace HistogramCommand

def answer (command : HistogramCommand) (histogram : Histogram) : Answer where
  report := match command.format with
    | .text => histogram.toText
    | .json => (Report.histogram histogram).document.toReport
    | .csv => histogram.toCsv
  file := command.output.map fun path ↦ { path, content := histogram.toChart }
  findings := histogram.findings

def answerByCategory (command : HistogramCommand) (histogram : BreakdownHistogram) : Answer where
  report := match command.format with
    | .text => histogram.toText
    | .json => (Report.breakdownHistogram histogram).document.toReport
    | .csv => histogram.toCsv
  file := command.output.map fun path ↦ { path, content := histogram.toChart }
  findings := histogram.findings

def check (command : HistogramCommand) : Except Failure Unit :=
  command.query.validate.mapError .request

def run (command : HistogramCommand) (path : String) (resources : Resources) :
    Except Failure Answer := do
  command.check
  let store ← resources.store path
  if command.byCategory then
    let table ← resources.table command.categories
    let histogram ← (BreakdownHistogram.extract store command.query table).mapError .request
    return command.answerByCategory histogram
  else
    let histogram ← (Histogram.extract store command.query).mapError .request
    return command.answer histogram

end HistogramCommand

def TreeCommand.check (command : TreeCommand) : Except Failure Unit :=
  if command.format = .csv then .error .tabularTree else .ok ()

def TreeCommand.run (command : TreeCommand) (path : String) (resources : Resources) :
    Except Failure Answer := do
  command.check
  let store ← resources.store path
  let tree ← (CallTree.build store command.root).mapError .request
  return {
    report :=
      if command.format = .json then (Report.callTree tree).document.toReport else tree.toText
    file := command.output.map fun path ↦ { path, content := tree.toDot }
    findings := tree.findings }

/-- The table of categories, or what is wrong with it or with the command itself. -/
def BreakdownCommand.table (command : BreakdownCommand) (resources : Resources) :
    Except Failure CategoryTable :=
  if command.format = .csv then .error .tabularBreakdown
  else resources.table command.categories

def BreakdownCommand.run (command : BreakdownCommand) (path : String) (resources : Resources) :
    Except Failure Answer := do
  let table ← command.table resources
  let store ← resources.store path
  let (breakdown, findings) ← (Breakdown.extract store table command.root).mapError .request
  return {
    report :=
      if command.format = .json then (Report.breakdown breakdown findings).document.toReport
      else breakdown.toText
    file := none
    findings }

def Invocation.run (invocation : Invocation) (resources : Resources) : Except Failure Answer :=
  match invocation.command with
  | .hist command => command.run invocation.database resources
  | .req command => command.run invocation.database resources
  | .breakdown command => command.run invocation.database resources

/-- Is the table of categories read before the database is opened? -/
def Invocation.readsTableFirst (invocation : Invocation) : Bool :=
  match invocation.command with
  | .breakdown _ => true
  | _ => false

def Invocation.opensDatabase (invocation : Invocation) (resources : Resources) : Bool :=
  let obstacle : Except Failure Unit := match invocation.command with
    | .hist command => command.check
    | .req command => command.check
    | .breakdown command => (command.table resources).map fun _ ↦ ()
  obstacle.toBool

def Failure.ending (failure : Failure) : Ending where
  status := 1
  stdout := ""
  stderr := failure.toText

/-- The end of a run that has an answer, once its file is written or cannot be written. A report
that was shown stays. -/
def Answer.ending (answer : Answer) (obstacle : Option FileError) : Ending :=
  match answer.file, obstacle with
  | none, _ => { status := 0, stdout := answer.report, stderr := answer.findings.toText }
  | some file, none =>
    { status := 0
      stdout := answer.report
      stderr := "Wrote " ++ file.path ++ "\n" ++ answer.findings.toText }
  | some file, some error =>
    { status := 1
      stdout := answer.report
      stderr := (Failure.output file.path error).toText }

end OpTrace

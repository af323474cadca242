import OpTrace.Histogram.Extract

/-!
# Invocations

An invocation is what a command line asks for: one of three commands with its settings, the
database to read, and whether to say more about what is done. The commands extract a histogram,
build a call tree, or break one operation down by category.
-/

namespace OpTrace

/-- The forms in which a report is written. -/
inductive ReportFormat where
  | text
  | json
  | csv
  deriving DecidableEq, Repr

def ReportFormat.name : ReportFormat → String
  | text => "text"
  | json => "json"
  | csv => "csv"

def ReportFormat.ofName? : String → Option ReportFormat
  | "text" => some text
  | "json" => some json
  | "csv" => some csv
  | _ => none

@[simp] theorem ReportFormat.ofName?_name (format : ReportFormat) :
    ofName? format.name = some format := by
  cases format <;> rfl

def SortOrder.name : SortOrder → String
  | ascending => "asc"
  | descending => "desc"

def SortOrder.ofName? : String → Option SortOrder
  | "asc" => some ascending
  | "desc" => some descending
  | _ => none

@[simp] theorem SortOrder.ofName?_name (order : SortOrder) : ofName? order.name = some order := by
  cases order <;> rfl

/-- Asks for a histogram. -/
structure HistogramCommand where
  fnTag : String
  only : Option OpId := none
  start : Option OpId := none
  /-- how many operations at most; zero sets no bound -/
  limit : Nat := 0
  sort : Option SortOrder := none
  byCategory : Bool := false
  categories : Option String := none
  output : Option String := none
  format : ReportFormat := .text
  deriving DecidableEq, Repr

def HistogramCommand.query (command : HistogramCommand) : HistogramQuery where
  fnTag := command.fnTag
  only := command.only
  window :=
    { start := command.start, limit := if command.limit = 0 then none else some command.limit }
  sort := command.sort
  byCategory := command.byCategory

/-- Asks for the call tree of an operation. -/
structure TreeCommand where
  root : OpId
  output : Option String := none
  format : ReportFormat := .text
  deriving DecidableEq, Repr

/-- Asks for the breakdown of an operation. -/
structure BreakdownCommand where
  root : OpId
  categories : Option String := none
  format : ReportFormat := .text
  deriving DecidableEq, Repr

/-- The commands. -/
inductive Command where
  | hist (command : HistogramCommand)
  | req (command : TreeCommand)
  | breakdown (command : BreakdownCommand)
  deriving DecidableEq, Repr

/-- What a command line asks for. -/
structure Invocation where
  database : String
  debug : Bool
  command : Command
  deriving DecidableEq, Repr

def Invocation.categories? (invocation : Invocation) : Option String :=
  match invocation.command with
  | .hist command => command.categories
  | .req _ => none
  | .breakdown command => command.categories

/-- The database that is read unless another one is named. -/
def Invocation.standardDatabase : String := "cortxfs_perfc.db"

/-- How a run ends. -/
structure Ending where
  status : Nat
  stdout : String
  stderr : String
  deriving DecidableEq, Repr

end OpTrace

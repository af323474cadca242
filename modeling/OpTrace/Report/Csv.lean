import OpTrace.Histogram.Basic

/-!
# Tables of comma-separated values

A table has one record on each line, with commas between its fields. A field that holds a comma, a
quote or a line end stands between quotes, and quotes in it are doubled. Durations carry their
unit.
-/

namespace OpTrace

namespace Csv

def needsQuotes (field : List Char) : Bool :=
  field.any fun c ↦ c = ',' || c = '"' || c = '\n'

def doubleQuotes (field : List Char) : List Char :=
  field.flatMap fun c ↦ if c = '"' then ['"', '"'] else [c]

def writeField (field : List Char) : List Char :=
  if needsQuotes field then '"' :: doubleQuotes field ++ ['"'] else field

def joinFields : List (List Char) → List Char
  | [] => []
  | [field] => field
  | field :: fields => field ++ ',' :: joinFields fields

def writeRecord (fields : List String) : List Char :=
  joinFields (fields.map fun field ↦ writeField field.toList) ++ ['\n']

def writeTable (records : List (List String)) : String :=
  String.ofList (records.flatMap writeRecord)

def microseconds (duration : Int) : String := toString duration ++ "us"

end Csv

def Histogram.records (histogram : Histogram) : List (List String) :=
  ["opid", "duration"] ::
    histogram.rows.map fun row ↦ [toString row.opid, Csv.microseconds row.duration]

def Histogram.toCsv (histogram : Histogram) : String := Csv.writeTable histogram.records

def Breakdown.record (breakdown : Breakdown) : List String :=
  [toString breakdown.total.opid, Csv.microseconds breakdown.total.duration] ++
    breakdown.buckets.map (fun bucket ↦ Csv.microseconds bucket.duration) ++
    [Csv.microseconds breakdown.uncategorised]

/-- The records of a histogram of breakdowns, one column for each category. -/
def BreakdownHistogram.records (histogram : BreakdownHistogram) : List (List String) :=
  (["opid", "total"] ++ histogram.categories ++ ["uncategorised"]) ::
    histogram.rows.map Breakdown.record

def BreakdownHistogram.toCsv (histogram : BreakdownHistogram) : String :=
  Csv.writeTable histogram.records

end OpTrace

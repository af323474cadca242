import OpTrace.Proofs.Breakdown.Sums
import OpTrace.Proofs.Histogram.Batch
import OpTrace.Report.Csv

/-!
# Reading tables of comma-separated values

A reader takes a table in one character after the other. It knows whether it stands in front of a
field, in one, or behind a quote inside quotes, which either is doubled or closes the field. A
comma ends a field and a line end ends a record, except between quotes.

What is written is read back, whatever the fields are made of. So a histogram of breakdowns is read
as one record for the names of its columns and one for each row, all of the same length, and no
name of a category can move a value to another column.
-/

namespace OpTrace

namespace Csv

/-- Where a reader stands. -/
inductive Place where
  /-- in front of a field -/
  | front
  /-- in a field that has no quotes around it -/
  | bare
  /-- between the quotes of a field -/
  | quoted
  /-- behind a quote that may close the field -/
  | closing
  deriving DecidableEq, Repr

/-- A table while it is read. -/
structure Reading where
  /-- the records that have ended -/
  records : List (List String) := []
  /-- the fields of the next record that have ended -/
  fields : List String := []
  /-- the characters of the next field -/
  field : List Char := []
  place : Place := .front
  deriving DecidableEq, Repr

namespace Reading

def take (reading : Reading) (place : Place) (c : Char) : Reading :=
  { reading with field := reading.field ++ [c], place }

def endField (reading : Reading) : Reading :=
  { records := reading.records, fields := reading.fields ++ [String.ofList reading.field] }

def endRecord (reading : Reading) : Reading :=
  { records := reading.records ++ [reading.endField.fields] }

def seeBare (reading : Reading) (c : Char) : Reading :=
  if c = ',' then reading.endField
  else if c = '\n' then reading.endRecord
  else reading.take .bare c

/-- Takes in one more character. Behind a closing quote there must be the end of the field. -/
def see (reading : Reading) (c : Char) : Option Reading :=
  match reading.place with
  | .front => if c = '"' then some { reading with place := .quoted } else some (reading.seeBare c)
  | .bare => some (reading.seeBare c)
  | .quoted => some (if c = '"' then { reading with place := .closing } else reading.take .quoted c)
  | .closing =>
    if c = '"' then some (reading.take .quoted c)
    else if c = ',' ∨ c = '\n' then some (reading.seeBare c)
    else none

def finish (reading : Reading) : Option (List (List String)) :=
  if reading.place = .front ∧ reading.fields = [] then some reading.records else none

end Reading

def readTable? (text : String) : Option (List (List String)) :=
  (text.toList.foldlM Reading.see {}).bind Reading.finish

namespace Reading

variable {reading : Reading}

/-- Doubled quotes are read as the quotes that they stand for. -/
theorem foldlM_see_doubleQuotes (h : reading.place = .quoted) (text : List Char) :
    (doubleQuotes text).foldlM see reading =
      some { reading with field := reading.field ++ text } := by
  induction text generalizing reading with
  | nil => simp [doubleQuotes]
  | cons c text ih =>
    have hstep : (doubleQuotes [c]).foldlM see reading = some (reading.take .quoted c) := by
      by_cases hc : c = '"'
      · simp [doubleQuotes, hc, see, h, take]
      · simp [doubleQuotes, hc, see, h]
    have hsplit : doubleQuotes (c :: text) = doubleQuotes [c] ++ doubleQuotes text := by
      simp [doubleQuotes]
    rw [hsplit, List.foldlM_append, hstep, Option.bind_eq_bind, Option.bind_some, ih rfl]
    simp [take, h]

/-- Characters that need no quotes are read as they are. -/
theorem exists_of_bare {text : List Char} (h : needsQuotes text = false)
    (hplace : reading.place = .front ∨ reading.place = .bare) :
    ∃ place, place ≠ .quoted ∧
      text.foldlM see reading = some { reading with field := reading.field ++ text, place } := by
  induction text generalizing reading with
  | nil =>
    refine ⟨reading.place, ?_, by simp⟩
    rcases hplace with hplace | hplace <;> simp [hplace]
  | cons c text ih =>
    simp only [needsQuotes, List.any_cons, Bool.or_eq_false_iff, decide_eq_false_iff_not] at h
    obtain ⟨⟨⟨hcomma, hquote⟩, hline⟩, hrest⟩ := h
    have hstep : reading.see c = some (reading.take .bare c) := by
      rcases hplace with hplace | hplace <;> simp [see, hplace, seeBare, hcomma, hquote, hline]
    have hbare : (reading.take .bare c).place = .front ∨ (reading.take .bare c).place = .bare :=
      .inr rfl
    obtain ⟨place, hend, hread⟩ := ih hrest hbare
    refine ⟨place, hend, ?_⟩
    rw [List.foldlM_cons, hstep, Option.bind_eq_bind, Option.bind_some, hread]
    simp [take]

/-- A written field is taken in as it was, and then it can end. -/
theorem exists_of_writeField (records : List (List String)) (fields : List String)
    (text : List Char) : ∃ place, place ≠ .quoted ∧
      (writeField text).foldlM see { records, fields } =
        some { records, fields, field := text, place } := by
  unfold writeField
  by_cases h : needsQuotes text = true
  · refine ⟨.closing, by decide, ?_⟩
    have hopen : see { records, fields } '"' = some { records, fields, place := .quoted } := rfl
    rw [if_pos h, List.cons_append, List.foldlM_cons, hopen, Option.bind_eq_bind, Option.bind_some,
      List.foldlM_append, foldlM_see_doubleQuotes rfl]
    rfl
  · rw [if_neg h]
    exact exists_of_bare (by simpa using h) (.inl rfl)

theorem see_comma (h : reading.place ≠ .quoted) : reading.see ',' = some reading.endField := by
  cases hplace : reading.place <;> simp_all [see, seeBare]

theorem see_lineEnd (h : reading.place ≠ .quoted) : reading.see '\n' = some reading.endRecord := by
  cases hplace : reading.place <;> simp_all [see, seeBare]

/-- The last fields of a record are read, and the record ends. -/
theorem foldlM_see_joinFields (records : List (List String)) (before : List String)
    {fields : List String} (h : fields ≠ []) :
    (joinFields (fields.map fun field ↦ writeField field.toList) ++ ['\n']).foldlM see
        { records, fields := before } = some { records := records ++ [before ++ fields] } := by
  induction fields generalizing before with
  | nil => exact absurd rfl h
  | cons field fields ih =>
    obtain ⟨place, hplace, hread⟩ := exists_of_writeField records before field.toList
    cases fields with
    | nil =>
      rw [List.map_singleton, joinFields, List.foldlM_append, hread, Option.bind_eq_bind,
        Option.bind_some, List.foldlM_cons, see_lineEnd hplace]
      simp [endRecord, endField]
    | cons next fields =>
      have hjoin : joinFields ((field :: next :: fields).map fun field ↦ writeField field.toList) =
          writeField field.toList ++
            ',' :: joinFields ((next :: fields).map fun field ↦ writeField field.toList) := rfl
      have hrest := ih (before ++ [field]) (List.cons_ne_nil _ _)
      rw [hjoin, List.append_assoc, List.foldlM_append, hread, Option.bind_eq_bind,
        Option.bind_some, List.cons_append, List.foldlM_cons, see_comma hplace,
        Option.bind_eq_bind, Option.bind_some, endField, String.ofList_toList, hrest,
        List.append_assoc, List.singleton_append]

theorem foldlM_see_writeRecord (records : List (List String)) {record : List String}
    (h : record ≠ []) :
    (writeRecord record).foldlM see { records } = some { records := records ++ [record] } :=
  foldlM_see_joinFields records [] h

theorem foldlM_see_flatMap_writeRecord (before : List (List String)) {records : List (List String)}
    (h : ∀ record ∈ records, record ≠ []) :
    (records.flatMap writeRecord).foldlM see { records := before } =
      some { records := before ++ records } := by
  induction records generalizing before with
  | nil => simp
  | cons record records ih =>
    obtain ⟨hrecord, hrecords⟩ := List.forall_mem_cons.mp h
    rw [List.flatMap_cons, List.foldlM_append, foldlM_see_writeRecord before hrecord,
      Option.bind_eq_bind, Option.bind_some, ih (before ++ [record]) hrecords, List.append_assoc,
      List.singleton_append]

end Reading

/-- Records that have fields are read as they were written. -/
theorem readTable?_writeTable {records : List (List String)} (h : ∀ record ∈ records, record ≠ []) :
    readTable? (writeTable records) = some records := by
  rw [readTable?, writeTable, String.toList_ofList, Reading.foldlM_see_flatMap_writeRecord [] h]
  rfl

example : readTable? "a,\"b\"\"\n\",\nc\n" = some [["a", "b\"\n", ""], ["c"]] := by cbv

example : readTable? "a,\"b\"c\n" = none := by cbv

end Csv

namespace BreakdownHistogram

variable {histogram : BreakdownHistogram}

/-- What the records of a histogram of breakdowns are. -/
structure HasRecords (histogram : BreakdownHistogram) (records : List (List String)) : Prop where
  length_eq : records.length = 1 + histogram.rows.length
  even : ∀ record ∈ records, record.length = 3 + histogram.categories.length
  names : records[0]? = some (["opid", "total"] ++ histogram.categories ++ ["uncategorised"])
  rows : ∀ (place : Nat) (row : Breakdown), histogram.rows[place]? = some row →
    records[place + 1]? = some
      ([toString row.total.opid, toString row.total.duration ++ "us"] ++
        row.buckets.map (fun bucket ↦ toString bucket.duration ++ "us") ++
          [toString row.uncategorised ++ "us"])

theorem hasRecords_records
    (h : ∀ row ∈ histogram.rows, row.buckets.length = histogram.categories.length) :
    histogram.HasRecords histogram.records where
  length_eq := by simp [records, Nat.add_comm]
  even := by
    intro record hrecord
    rcases List.mem_cons.mp hrecord with rfl | hrecord
    · simp [Nat.add_comm, Nat.add_left_comm]
    · obtain ⟨row, hrow, rfl⟩ := List.mem_map.mp hrecord
      simp only [Breakdown.record, List.length_append, List.length_cons, List.length_nil,
        List.length_map, h row hrow]
      omega
  names := rfl
  rows place row hrow := by
    rw [records, List.getElem?_cons_succ, List.getElem?_map, hrow]
    rfl

/-- The breakdowns that are extracted have one bucket for each category. -/
theorem length_buckets_of_extract {store : Store} {query : HistogramQuery} {table : CategoryTable}
    (h : extract store query table = .ok histogram) :
    ∀ row ∈ histogram.rows, row.buckets.length = histogram.categories.length := by
  obtain ⟨_, -, h⟩ := bind_eq_ok.mp h
  obtain ⟨pattern, -, h⟩ := bind_eq_ok.mp h
  obtain ⟨opids, -, h⟩ := bind_eq_ok.mp h
  obtain ⟨answers, hanswers, h⟩ := bind_eq_ok.mp h
  obtain rfl := pure_eq_ok.mp h
  rw [lift_eq_ok, breakdownAll_eq_readAll] at hanswers
  intro row hrow
  obtain ⟨⟨answer, findings⟩, hanswer, rfl⟩ := List.mem_filterMap.mp hrow
  obtain ⟨opid, -, hread⟩ := (mem_readAll hanswers).mp hanswer
  obtain ⟨total, visits, -, hvisits, rfl, -⟩ := Breakdown.descend_of_ofOperation hread
  have hsums : Tally.Sums table (visits.foldl (Tally.see table) (Tally.start table)) :=
    Tally.sums_foldl_see (resolved_of_descendFrom hvisits)
  have hnames : (Breakdown.ofVisits table total visits).buckets.map (·.name) = table.names :=
    hsums.map_name
  simpa using congrArg List.length hnames

/-- The table of a histogram of breakdowns is read as its records. -/
theorem readTable?_toCsv
    (h : ∀ row ∈ histogram.rows, row.buckets.length = histogram.categories.length) :
    ∃ records, Csv.readTable? histogram.toCsv = some records ∧ histogram.HasRecords records := by
  have hrecords := hasRecords_records h
  have hfields : ∀ record ∈ histogram.records, record ≠ [] := by
    rintro record hrecord rfl
    have hlength := hrecords.even [] hrecord
    rw [List.length_nil] at hlength
    omega
  exact ⟨histogram.records, Csv.readTable?_writeTable hfields, hrecords⟩

end BreakdownHistogram

namespace Quoted

def table : CategoryTable where
  categories :=
    [{ name := "hot,\n\"cold\"", tags := ["CFS"] }, { name := "", tags := ["KVS"] },
      { name := "\"", tags := ["M0"] }]
  ne_nil := by decide
  nodup_tags := by decide

def buckets : List Bucket := table.names.map fun name ↦ { name }

def histogram : BreakdownHistogram where
  fnTag := "read"
  selected := 2
  categories := table.names
  rows :=
    [{ total := { opid := 1, fnTag := "other", smTag := none, start := 0, finish := 20 },
       buckets, uncategorised := 0, attributions := [] },
      { total := { opid := 2, fnTag := "read", smTag := none, start := 5, finish := 9 },
        buckets, uncategorised := 0, attributions := [] }]
  findings := []

theorem extract_eq :
    BreakdownHistogram.extract Renamed.trace.toStore Renamed.query table = .ok histogram := by
  cbv

end Quoted

/-- The names are read back as they are, and each row has its five durations. -/
theorem BreakdownHistogram.readTable?_quoted :
    ∃ records, Csv.readTable? Quoted.histogram.toCsv = some records ∧
      Quoted.histogram.HasRecords records :=
  readTable?_toCsv (length_buckets_of_extract Quoted.extract_eq)

end OpTrace

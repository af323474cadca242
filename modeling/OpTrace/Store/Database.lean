import OpTrace.Store.Cell

/-!
# Databases

A database keeps the three relations as tables of cells, in the order in which the rows were
written. A question selects rows, puts them in the order of their numbers, and only then reads
them, row by row and column by column, so the first cell of a wrong kind is the one that is
reported. The states of state rows are words; they are understood once all rows are read, so a
word that is no state is reported only if no cell is of a wrong kind.

Columns are read from left to right. The value of an attribute may be of any kind and is written
out as text.
-/

namespace OpTrace

/-- The cells of the columns that all tables have. -/
structure HeaderCells where
  id : Cell
  pid : Cell
  time : Cell
  component : Cell
  fnTag : Cell
  smTag : Cell
  entityType : Cell
  deriving DecidableEq

structure StateCells extends HeaderCells where
  opid : Cell
  state : Cell
  deriving DecidableEq

structure AttributeCells extends HeaderCells where
  opid : Cell
  name : Cell
  value : Cell
  deriving DecidableEq

structure MapCells extends HeaderCells where
  mapName : Cell
  src : Cell
  dst : Cell
  clr : Cell
  deriving DecidableEq

/-- Reads the shared columns, which are the first seven of every table. -/
def HeaderCells.read (cells : HeaderCells) : StoreResult Header := do
  return {
    id := ← cells.id.readInteger 0 "id"
    pid := ← cells.pid.readInteger 1 "pid"
    time := ← cells.time.readInteger 2 "time"
    component := ← cells.component.readText 3 "tsdb_mod"
    fnTag := ← cells.fnTag.readText 4 "fn_tag"
    smTag := ← cells.smTag.readOptionalText 5 "sm_tag"
    entityType := ← cells.entityType.readText 6 "entity_type" }

/-- A state row whose state is still a word. -/
structure WordedState extends Header where
  opid : OpId
  word : String
  deriving DecidableEq, Repr

namespace WordedState

def understand (row : WordedState) : StoreResult StateRow :=
  match StateType.ofName? row.word with
  | some state => .ok { toHeader := row.toHeader, opid := row.opid, state }
  | none => .error (.unknownState row.id row.word)

end WordedState

def StateCells.read (cells : StateCells) : StoreResult WordedState := do
  return {
    toHeader := ← cells.toHeaderCells.read
    opid := ← cells.opid.readInteger 7 "opid"
    word := ← cells.state.readText 8 "state_type" }

def AttributeCells.read (cells : AttributeCells) : StoreResult AttributeRow := do
  return {
    toHeader := ← cells.toHeaderCells.read
    opid := ← cells.opid.readInteger 7 "opid"
    name := ← cells.name.readText 8 "attr_name"
    value := cells.value.display }

def MapCells.read (cells : MapCells) : StoreResult MapRow := do
  return {
    toHeader := ← cells.toHeaderCells.read
    mapName := ← cells.mapName.readText 7 "map_name"
    src := ← cells.src.readInteger 8 "src_opid"
    dst := ← cells.dst.readInteger 9 "dst_opid"
    clr := ← cells.clr.readInteger 10 "clr_opid" }

/-- Reads rows one after the other, up to the first that fails. -/
def readAll {α β : Type} (read : α → StoreResult β) : List α → StoreResult (List β)
  | [] => .ok []
  | row :: rows => do
    let first ← read row
    let rest ← readAll read rows
    return first :: rest

theorem exists_read_of_mem_readAll {α β : Type} {read : α → StoreResult β} {rows : List α}
    {answer : List β} (h : readAll read rows = .ok answer) {b : β} (hb : b ∈ answer) :
    ∃ a ∈ rows, read a = .ok b := by
  induction rows generalizing answer with
  | nil =>
    cases h
    simp at hb
  | cons row rows ih =>
    simp only [readAll, bind, Except.bind, pure, Except.pure] at h
    split at h
    · cases h
    · next first hfirst =>
      split at h
      · cases h
      · next rest hrest =>
        cases h
        rcases List.mem_cons.mp hb with rfl | hmem
        · exact ⟨row, List.mem_cons_self, hfirst⟩
        · obtain ⟨a, ha, hread⟩ := ih hrest hmem
          exact ⟨a, List.mem_cons_of_mem _ ha, hread⟩

/-- A database. A table that it does not have is `none`. -/
structure Database where
  states : Option (List StateCells)
  attributes : Option (List AttributeCells)
  maps : Option (List MapCells)

namespace Database

def empty : Database := { states := none, attributes := none, maps := none }

/-- The rows of a table, if the database has it. -/
def rowsOf {α : Type} (table : Option (List α)) (name : String) : StoreResult (List α) :=
  match table with
  | some rows => .ok rows
  | none => .error (.missingTable name)

/-- Selects rows and puts them in the order of their numbers. -/
def select {α : Type} (number : α → Cell) (keep : α → Bool) (rows : List α) : List α :=
  (rows.filter keep).mergeSort fun a b ↦ (number a).le (number b)

theorem mem_of_mem_select {α : Type} {number : α → Cell} {keep : α → Bool} {rows : List α} {a : α}
    (h : a ∈ select number keep rows) : a ∈ rows :=
  (List.mem_filter.mp (List.mem_mergeSort.mp h)).1

def answerStates (db : Database) (keep : StateCells → Bool) : StoreResult (List StateRow) := do
  let rows ← rowsOf db.states "entity_states"
  let worded ← readAll StateCells.read (select (·.id) keep rows)
  readAll WordedState.understand worded

def answerAttributes (db : Database) (keep : AttributeCells → Bool) :
    StoreResult (List AttributeRow) := do
  let rows ← rowsOf db.attributes "entity_attributes"
  readAll AttributeCells.read (select (·.id) keep rows)

def answerMaps (db : Database) (keep : MapCells → Bool) : StoreResult (List MapRow) := do
  let rows ← rowsOf db.maps "entity_maps"
  readAll MapCells.read (select (·.id) keep rows)

/-- The rows of one operation, and the least of their numbers that is present. -/
structure Group where
  rows : List StateCells
  deriving DecidableEq

namespace Group

/-- A row of the group whose number is the least present one; the last row if none is present. -/
def leader (group : Group) : Option StateCells :=
  let numbered := group.rows.filter (·.id ≠ .null)
  match numbered with
  | [] => group.rows.getLast?
  | first :: rest =>
    some (rest.foldl (fun best row ↦ if row.id.compare best.id = .lt then row else best) first)

/-- The least number of the group, absent if no row has one. -/
def number (group : Group) : Cell := (group.leader.map (·.id)).getD .null

end Group

/-- Groups state rows by operation; groups come in the order of their least numbers, and groups of
equal least number in the order of their operations. -/
def groups (rows : List StateCells) : List Group :=
  let byOpid := rows.mergeSort fun a b ↦ a.opid.le b.opid
  let runs := (byOpid.splitBy fun a b ↦ a.opid.compare b.opid = .eq).map Group.mk
  runs.mergeSort fun a b ↦ a.number.le b.number

/-- Answers with the operations that have a selected state row, by least number. -/
def answerOpids (db : Database) (keep : StateCells → Bool) : StoreResult (List OpId) := do
  let rows ← rowsOf db.states "entity_states"
  readAll (fun row ↦ row.opid.readInteger 0 "opid")
    ((groups (rows.filter keep)).filterMap Group.leader)

/-- The operations that a readable map row names as its source. -/
def sources (db : Database) : List OpId :=
  (db.maps.getD []).filterMap fun cells ↦ cells.read.toOption.map (·.src)

theorem mem_sources_of_answerMaps {db : Database} {keep : MapCells → Bool} {rows : List MapRow}
    {row : MapRow} (h : db.answerMaps keep = .ok rows) (hrow : row ∈ rows) :
    row.src ∈ db.sources := by
  unfold answerMaps at h
  cases hmaps : db.maps with
  | none => simp [hmaps, rowsOf, bind, Except.bind] at h
  | some cells =>
    simp only [hmaps, rowsOf, bind, Except.bind] at h
    obtain ⟨a, ha, hread⟩ := exists_read_of_mem_readAll h hrow
    simp only [sources, hmaps, Option.getD_some, List.mem_filterMap]
    exact ⟨a, mem_of_mem_select ha, by simp [hread, Except.toOption]⟩

def patternBound : Nat := 50000

/-- Refuses a pattern that is too long. It is noticed when the pattern meets the first row. -/
def checkPattern (db : Database) (pattern : TagPattern) : StoreResult Unit :=
  if patternBound < pattern.text.utf8ByteSize ∧ db.states.any (!·.isEmpty) then .error .longPattern
  else .ok ()

def toStore (db : Database) : Store where
  statesOf opid := db.answerStates (·.opid.isNumber opid)
  statesTagged pattern := do
    db.checkPattern pattern
    db.answerStates (·.fnTag.isMatched pattern)
  attributesOf opid := db.answerAttributes (·.opid.isNumber opid)
  mapsInto opid := db.answerMaps (·.dst.isNumber opid)
  mapsFrom opid := db.answerMaps (·.src.isNumber opid)
  mapsClearedBy opid := db.answerMaps (·.clr.isNumber opid)
  opidsTagged pattern window := do
    db.checkPattern pattern
    return window.apply (← db.answerOpids (·.fnTag.isMatched pattern))
  sources := db.sources
  mem_sources_of_mapsInto h hrow := mem_sources_of_answerMaps h hrow
  mem_sources_of_mapsClearedBy h hrow := mem_sources_of_answerMaps h hrow

end Database

end OpTrace

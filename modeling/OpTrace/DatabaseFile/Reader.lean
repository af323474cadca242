import OpTrace.DatabaseFile.Head
import OpTrace.DatabaseFile.Schema
import OpTrace.Store.Database

/-!
# Reading database files

The first tree of a database file lists its tables, each with the root of its own tree and the
statement that made it. Columns are found by name, in whatever order they stand; a column that a
table does not have is absent in every row. A file of at most one byte is a database without tables.
-/

namespace OpTrace

namespace DatabaseFile

/-- A table: its columns and its rows. -/
structure Table where
  columns : List Column
  rows : List Row

/-- Are two names of tables or columns the same? Capitals make no difference. -/
def sameName (a b : String) : Bool := a.map Char.toLower == b.map Char.toLower

def table? (pages : Pages) (listing : List Row) (name : String) : Option Table :=
  listing.findSome? fun row ↦ match row.cells with
    | [.text "table", .text other, _, .integer root, .text statement] =>
      if sameName other name then do
        return { columns := columnsOf statement, rows := ← pages.rows? root.toNat }
      else none
    | _ => none

def cellIn (columns : List Column) (row : Row) (name : String) : Cell :=
  match columns.findIdx? fun column ↦ sameName column.name name with
  | none => .null
  | some index =>
    if (columns[index]?.map (·.isRowNumber)).getD false then .integer row.number
    else row.cells[index]?.getD .null

def headerCells (cell : String → Cell) : HeaderCells where
  id := cell "id"
  pid := cell "pid"
  time := cell "time"
  component := cell "tsdb_mod"
  fnTag := cell "fn_tag"
  smTag := cell "sm_tag"
  entityType := cell "entity_type"

def stateCells (cell : String → Cell) : StateCells :=
  { headerCells cell with opid := cell "opid", state := cell "state_type" }

def attributeCells (cell : String → Cell) : AttributeCells :=
  { headerCells cell with opid := cell "opid", name := cell "attr_name", value := cell "attr_val" }

def mapCells (cell : String → Cell) : MapCells :=
  { headerCells cell with
    mapName := cell "map_name", src := cell "src_opid", dst := cell "dst_opid"
    clr := cell "clr_opid" }

/-- The rows of a table as rows of cells. -/
def Table.read {α : Type} (table : Table) (read : (String → Cell) → α) : List α :=
  table.rows.map fun row ↦ read (cellIn table.columns row)

end DatabaseFile

open DatabaseFile in
def Database.ofPages? (pages : Pages) : Option Database := do
  let listing ← pages.rows? 1
  return {
    states := (table? pages listing "entity_states").map (·.read stateCells)
    attributes := (table? pages listing "entity_attributes").map (·.read attributeCells)
    maps := (table? pages listing "entity_maps").map (·.read mapCells) }

open DatabaseFile in
def Database.ofBytes (bytes : ByteArray) : Except DatabaseError Database :=
  if bytes.size ≤ 1 then .ok .empty
  else do
    match ofPages? (← Pages.ofBytes bytes) with
    | some db => .ok db
    | none => .error .damaged

end OpTrace

import OpTrace.Event.Basic
import OpTrace.Json.Basic

/-!
# Events as records

The written form of a row names every column. The tag of the sub-module is left out when there is
none, and may be left out or `null` when a row is read; every other column must be there with the
right type. Columns that a row does not have are passed over.
-/

namespace OpTrace

def column? {α : Type} (decode : Json → Option α) (cell : Option Json) : Option α :=
  cell.bind decode

/-- Looks up a text that may be missing. The outer layer fails on a value of another type. -/
def optionalText? : Option Json → Option (Option String)
  | none => some none
  | some .null => some none
  | some value => value.text?.map some

namespace StateType

/-- Reads the word of a state; the word may stand as the only field of an object, with no value. -/
def ofJson? : Json → Option StateType
  | .str word => ofName? word
  | .obj [(word, .null)] => ofName? word
  | _ => none

end StateType

namespace Header

def columns : List String := ["id", "pid", "time", "module", "fn_tag", "sm_tag", "entity_type"]

def fields (header : Header) : List (String × Json) :=
  [("id", .int header.id), ("pid", .int header.pid), ("time", .int header.time),
    ("module", .str header.component), ("fn_tag", .str header.fnTag)] ++
  Json.optional "sm_tag" .str header.smTag ++ [("entity_type", .str header.entityType)]

def ofCells? (cell : String → Option Json) : Option Header := do
  return {
    id := ← column? Json.word? (cell "id")
    pid := ← column? Json.word? (cell "pid")
    time := ← column? Json.word? (cell "time")
    component := ← column? Json.text? (cell "module")
    fnTag := ← column? Json.text? (cell "fn_tag")
    smTag := ← optionalText? (cell "sm_tag")
    entityType := ← column? Json.text? (cell "entity_type") }

end Header

namespace StateRow

def columns : List String := Header.columns ++ ["opid", "state_type"]

def toJson (row : StateRow) : Json :=
  .obj (row.toHeader.fields ++ [("opid", .int row.opid), ("state_type", .str row.state.name)])

def ofJson? (json : Json) : Option StateRow := do
  let cell ← json.record? columns
  return {
    toHeader := ← Header.ofCells? cell
    opid := ← column? Json.word? (cell "opid")
    state := ← column? StateType.ofJson? (cell "state_type") }

end StateRow

namespace AttributeRow

def columns : List String := Header.columns ++ ["opid", "attr_name", "attr_val"]

def toJson (row : AttributeRow) : Json :=
  .obj (row.toHeader.fields ++
    [("opid", .int row.opid), ("attr_name", .str row.name), ("attr_val", .str row.value)])

def ofJson? (json : Json) : Option AttributeRow := do
  let cell ← json.record? columns
  return {
    toHeader := ← Header.ofCells? cell
    opid := ← column? Json.word? (cell "opid")
    name := ← column? Json.text? (cell "attr_name")
    value := ← column? Json.text? (cell "attr_val") }

end AttributeRow

namespace MapRow

def columns : List String := Header.columns ++ ["map_name", "src_opid", "dst_opid", "clr_opid"]

def toJson (row : MapRow) : Json :=
  .obj (row.toHeader.fields ++
    [("map_name", .str row.mapName), ("src_opid", .int row.src), ("dst_opid", .int row.dst),
      ("clr_opid", .int row.clr)])

def ofJson? (json : Json) : Option MapRow := do
  let cell ← json.record? columns
  return {
    toHeader := ← Header.ofCells? cell
    mapName := ← column? Json.text? (cell "map_name")
    src := ← column? Json.word? (cell "src_opid")
    dst := ← column? Json.word? (cell "dst_opid")
    clr := ← column? Json.word? (cell "clr_opid") }

end MapRow

end OpTrace

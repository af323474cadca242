import OpTrace.Span
import OpTrace.Store.Pattern
import OpTrace.Store.Window

/-!
# Stores

A store answers seven questions about a trace. Rows come in the order of recording. A store may
hold rows that do not fit their relation, so each question may fail; the failure names the first
thing that is wrong, and no part of an answer comes with it.

A walk from operation to operation along the map relation ends because a store holds finitely many
map rows. `Store.sources` lists the operations that such a walk can meet, and the two last fields
say that it misses none.
-/

namespace OpTrace

/-- The kinds of values that a cell of a database can hold. -/
inductive CellKind where
  | null
  | integer
  | real
  | text
  | blob
  deriving DecidableEq, Repr

def CellKind.name : CellKind → String
  | null => "Null"
  | integer => "Integer"
  | real => "Real"
  | text => "Text"
  | blob => "Blob"

/-- Why a question has no answer. -/
inductive StoreError where
  /-- a cell whose value has the wrong kind, with the place of its column in the row -/
  | columnType (kind : CellKind) (index : Nat) (column : String)
  /-- a state row whose state is no state -/
  | unknownState (row : Int) (word : String)
  /-- a relation that the database does not have -/
  | missingTable (table : String)
  /-- a text that spells no pattern -/
  | invalidPattern (text : String) (flaw : PatternFlaw)
  /-- a pattern that is longer than a database allows -/
  | longPattern
  deriving DecidableEq, Repr

namespace StoreError

/-- The failure of the database engine behind the error, and what caused that in turn. -/
def engineChain : StoreError → List String
  | columnType kind index column =>
    [s!"Invalid column type {kind.name} at index: {index}, name: {column}"]
  | missingTable table =>
    [s!"no such table: {table}", "Error code 1: SQL error or missing database"]
  | longPattern =>
    ["LIKE or GLOB pattern too complex", "Error code 1: SQL error or missing database"]
  | _ => []

def message : StoreError → String
  | unknownState row word =>
    s!"Invalid row in entity_states (id {row}): {StateType.unknownMessage word}"
  | invalidPattern text flaw => s!"Invalid fn_tag pattern '{text}': {flaw.message}"
  | error => "SQLite query failed: " ++ error.engineChain.headD ""

end StoreError

abbrev StoreResult (α : Type) := Except StoreError α

/-- A source of answers about one trace. -/
structure Store where
  /-- the state rows of an operation -/
  statesOf : OpId → StoreResult (List StateRow)
  /-- the state rows whose function tag matches -/
  statesTagged : TagPattern → StoreResult (List StateRow)
  /-- the attribute rows of an operation -/
  attributesOf : OpId → StoreResult (List AttributeRow)
  /-- the map rows that name the operation as the destination -/
  mapsInto : OpId → StoreResult (List MapRow)
  /-- the map rows that name the operation as the source -/
  mapsFrom : OpId → StoreResult (List MapRow)
  /-- the map rows that name the operation as the clearance operation -/
  mapsClearedBy : OpId → StoreResult (List MapRow)
  /-- the operations with a matching state row, by first appearance, inside a window -/
  opidsTagged : TagPattern → Window → StoreResult (List OpId)
  /-- the operations that any map row names as its source -/
  sources : List OpId
  mem_sources_of_mapsInto {opid : OpId} {rows : List MapRow} {row : MapRow} :
    mapsInto opid = .ok rows → row ∈ rows → row.src ∈ sources
  mem_sources_of_mapsClearedBy {opid : OpId} {rows : List MapRow} {row : MapRow} :
    mapsClearedBy opid = .ok rows → row ∈ rows → row.src ∈ sources

/-- Resolves an operation from all its state rows. -/
def Store.resolve (store : Store) (opid : OpId) : StoreResult Resolution := do
  return Resolution.ofStates opid (← store.statesOf opid)

/-- A span that a store resolves is about the operation that was asked for. -/
theorem Store.opid_of_resolve {store : Store} {opid : OpId} {span : Span}
    (h : store.resolve opid = .ok (.complete span)) : span.opid = opid := by
  unfold Store.resolve at h
  cases hs : store.statesOf opid with
  | error e => simp [hs, bind, Except.bind] at h
  | ok rows =>
    simp only [hs, bind, Except.bind, pure, Except.pure, Except.ok.injEq] at h
    exact Resolution.opid_of_ofStates h

end OpTrace

import OpTrace.Proofs.Store.Reading

/-!
# Databases of written rows

A row is written into cells column by column: numbers as whole numbers, texts as texts, an absent
tag as an absent value, a state as its word. Reading gives the row back. A database of written rows
therefore answers every question with the rows that the question selects, in the order of their
numbers. If all numbers are different, then it makes no difference in what order the rows were
written.
-/

namespace OpTrace

def HeaderCells.ofHeader (header : Header) : HeaderCells where
  id := .integer header.id
  pid := .integer header.pid
  time := .integer header.time
  component := .text header.component
  fnTag := .text header.fnTag
  smTag := header.smTag.elim .null .text
  entityType := .text header.entityType

@[simp] theorem HeaderCells.read_ofHeader (header : Header) :
    (ofHeader header).read = .ok header := by
  obtain ⟨id, pid, time, component, fnTag, smTag, entityType⟩ := header
  cases smTag <;> rfl

/-- The state row as it stands before its state is understood. -/
def WordedState.ofRow (row : StateRow) : WordedState where
  toHeader := row.toHeader
  opid := row.opid
  word := row.state.name

@[simp] theorem WordedState.understand_ofRow (row : StateRow) :
    (ofRow row).understand = .ok row := by
  simp [understand, ofRow]

def StateCells.ofRow (row : StateRow) : StateCells where
  toHeaderCells := .ofHeader row.toHeader
  opid := .integer row.opid
  state := .text row.state.name

@[simp] theorem StateCells.read_ofRow (row : StateRow) : (ofRow row).read = .ok (.ofRow row) := by
  simp [read, ofRow, WordedState.ofRow, Cell.readInteger, Cell.readText, bind, Except.bind, pure,
    Except.pure]

def AttributeCells.ofRow (row : AttributeRow) : AttributeCells where
  toHeaderCells := .ofHeader row.toHeader
  opid := .integer row.opid
  name := .text row.name
  value := .text row.value

@[simp] theorem AttributeCells.read_ofRow (row : AttributeRow) : (ofRow row).read = .ok row := by
  simp [read, ofRow, Cell.readInteger, Cell.readText, Cell.display, bind, Except.bind, pure,
    Except.pure]

def MapCells.ofRow (row : MapRow) : MapCells where
  toHeaderCells := .ofHeader row.toHeader
  mapName := .text row.mapName
  src := .integer row.src
  dst := .integer row.dst
  clr := .integer row.clr

@[simp] theorem MapCells.read_ofRow (row : MapRow) : (ofRow row).read = .ok row := by
  simp [read, ofRow, Cell.readInteger, Cell.readText, bind, Except.bind, pure, Except.pure]

section ReadBack

variable {α ρ σ : Type} {write : ρ → α}

/-- Rows that can all be read are read one by one. -/
theorem readAll_of_forall {read : α → StoreResult σ} {found : α → σ} {rows : List α}
    (hread : ∀ row ∈ rows, read row = .ok (found row)) :
    readAll read rows = .ok (rows.map found) := by
  induction rows with
  | nil => rfl
  | cons row rows ih =>
    obtain ⟨hfirst, hrest⟩ := List.forall_mem_cons.mp hread
    simp [readAll, hfirst, ih hrest, bind, Except.bind, pure, Except.pure]

theorem readAll_map {read : α → StoreResult σ} (rows : List ρ) :
    readAll read (rows.map write) = readAll (fun row ↦ read (write row)) rows := by
  induction rows with
  | nil => rfl
  | cons row rows ih => rw [List.map_cons, readAll, readAll, ih]

/-- Selecting among written rows selects rows and puts them in the order of their numbers. -/
theorem Database.select_map [Row ρ] {number : α → Cell} {keep : α → Bool} {holds : ρ → Bool}
    (hnumber : ∀ row, number (write row) = .integer (rowId row))
    (hkeep : ∀ row, keep (write row) = holds row) (rows : List ρ) :
    select number keep (rows.map write) = ((Log.sortRows rows).filter holds).map write := by
  have hfilter : (rows.map write).filter keep = (rows.filter holds).map write := by
    rw [List.filter_map]
    congr 2
    funext row
    exact hkeep row
  rw [select, hfilter, Log.filter_sortRows]
  symm
  apply List.map_mergeSort
  intro a _ b _
  rw [hnumber, hnumber, Cell.le_integer]

/-- Selected rows are read in the order of their numbers. -/
theorem Database.readAll_select [Row ρ] {read : α → StoreResult σ} {found : ρ → σ}
    {keep : α → Bool} {holds : ρ → Bool} (number : α → Cell)
    (hread : ∀ row, read (write row) = .ok (found row))
    (hnumber : ∀ row, number (write row) = .integer (rowId row))
    (hkeep : ∀ row, keep (write row) = holds row) (rows : List ρ) :
    readAll read (select number keep (rows.map write)) =
      .ok (((Log.sortRows rows).filter holds).map found) := by
  rw [select_map hnumber hkeep, readAll_map, readAll_of_forall fun row _ ↦ hread row]

end ReadBack

namespace Log

variable {ρ : Type} [Row ρ] {rows rows' : List ρ}

theorem perm_sortRows (rows : List ρ) : (sortRows rows).Perm rows := List.mergeSort_perm rows _

/-- Rows with different numbers are sorted strictly. -/
theorem pairwise_lt_sortRows (hnodup : (rows.map rowId).Nodup) :
    (sortRows rows).Pairwise fun a b ↦ rowId a < rowId b := by
  have hne : (sortRows rows).Pairwise fun a b ↦ rowId a ≠ rowId b :=
    List.pairwise_map.mp (((perm_sortRows rows).map rowId).nodup_iff.mpr hnodup)
  refine ((pairwise_sortRows rows).and hne).imp fun h ↦ ?_
  have := h.1
  have := h.2
  omega

/-- Rows with different numbers are sorted in one way, in whatever order they arrive. -/
theorem sortRows_eq_of_perm (hperm : rows'.Perm rows) (hnodup : (rows.map rowId).Nodup) :
    sortRows rows' = sortRows rows := by
  have hnodup' : (rows'.map rowId).Nodup := (hperm.map rowId).nodup_iff.mpr hnodup
  have hsorted : (sortRows rows').Perm (sortRows rows) :=
    (perm_sortRows rows').trans (hperm.trans (perm_sortRows rows).symm)
  refine hsorted.eq_of_pairwise (fun a b _ _ hab hba ↦ ?_) (pairwise_lt_sortRows hnodup')
    (pairwise_lt_sortRows hnodup)
  omega

end Log

namespace Database

def ofRows (states : List StateRow) (attributes : List AttributeRow) (maps : List MapRow) :
    Database where
  states := some (states.map StateCells.ofRow)
  attributes := some (attributes.map AttributeCells.ofRow)
  maps := some (maps.map MapCells.ofRow)

variable {states : List StateRow} {attributes : List AttributeRow} {maps : List MapRow}

theorem answerStates_ofRows {keep : StateCells → Bool} {holds : StateRow → Bool}
    (hkeep : ∀ row, keep (.ofRow row) = holds row) :
    (ofRows states attributes maps).answerStates keep =
      .ok ((Log.sortRows states).filter holds) := by
  have hread := readAll_select (·.id) StateCells.read_ofRow (fun _ ↦ rfl) hkeep states
  refine bind_eq_ok.mpr ⟨_, rfl, bind_eq_ok.mpr ⟨_, hread, ?_⟩⟩
  rw [readAll_map, readAll_of_forall fun row _ ↦ WordedState.understand_ofRow row, List.map_id']

theorem answerAttributes_ofRows {keep : AttributeCells → Bool} {holds : AttributeRow → Bool}
    (hkeep : ∀ row, keep (.ofRow row) = holds row) :
    (ofRows states attributes maps).answerAttributes keep =
      .ok ((Log.sortRows attributes).filter holds) := by
  have hread := readAll_select (·.id) AttributeCells.read_ofRow (fun _ ↦ rfl) hkeep attributes
  rw [List.map_id'] at hread
  exact bind_eq_ok.mpr ⟨_, rfl, hread⟩

theorem answerMaps_ofRows {keep : MapCells → Bool} {holds : MapRow → Bool}
    (hkeep : ∀ row, keep (.ofRow row) = holds row) :
    (ofRows states attributes maps).answerMaps keep = .ok ((Log.sortRows maps).filter holds) := by
  have hread := readAll_select (·.id) MapCells.read_ofRow (fun _ ↦ rfl) hkeep maps
  rw [List.map_id'] at hread
  exact bind_eq_ok.mpr ⟨_, rfl, hread⟩

end Database

end OpTrace

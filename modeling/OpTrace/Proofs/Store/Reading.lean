import OpTrace.Proofs.StableOrder
import OpTrace.Proofs.Store.Serving
import OpTrace.Store.Database

/-!
# Databases serve what can be read

A database selects rows by their cells, sorts them by their numbers, and reads them afterwards. If
a question has an answer, then all selected rows can be read, and the answer is what comes from
reading the whole table first and selecting and sorting rows instead of cells. So a database whose
questions have answers serves the rows that can be read. Rows that cannot be read are in no answer.
-/

namespace OpTrace

section Readable

variable {α β γ : Type} {read : α → StoreResult β} {rows : List α} {answer : List β}

def readable (read : α → StoreResult β) (rows : List α) : List β :=
  rows.filterMap fun row ↦ (read row).toOption

theorem toOption_eq_some {result : StoreResult β} {b : β} :
    result.toOption = some b ↔ result = .ok b := by
  cases result <;> simp [Except.toOption]

theorem mem_readable {b : β} : b ∈ readable read rows ↔ ∃ a ∈ rows, read a = .ok b := by
  simp only [readable, List.mem_filterMap, toOption_eq_some]

theorem readable_cons {row : α} {b : β} (h : read row = .ok b) :
    readable read (row :: rows) = b :: readable read rows :=
  List.filterMap_cons_some (f := fun row ↦ (read row).toOption) (toOption_eq_some.mpr h)

theorem exists_read_of_readAll (h : readAll read rows = .ok answer) {a : α} (ha : a ∈ rows) :
    ∃ b, read a = .ok b := by
  induction rows generalizing answer with
  | nil => simp at ha
  | cons row rows ih =>
    obtain ⟨first, hfirst, h⟩ := bind_eq_ok.mp h
    obtain ⟨rest, hrest, -⟩ := bind_eq_ok.mp h
    rcases List.mem_cons.mp ha with rfl | ha
    · exact ⟨first, hfirst⟩
    · exact ih hrest ha

theorem eq_readable_of_readAll (h : readAll read rows = .ok answer) :
    answer = readable read rows := by
  induction rows generalizing answer with
  | nil =>
    cases h
    rfl
  | cons row rows ih =>
    obtain ⟨first, hfirst, h⟩ := bind_eq_ok.mp h
    obtain ⟨rest, hrest, h⟩ := bind_eq_ok.mp h
    obtain rfl := pure_eq_ok.mp h
    rw [readable_cons hfirst, ← ih hrest]

/-- What is read from rows, if all of them can be read. -/
theorem mem_readAll (h : readAll read rows = .ok answer) {b : β} :
    b ∈ answer ↔ ∃ a ∈ rows, read a = .ok b := by
  rw [eq_readable_of_readAll h, mem_readable]

/-- Reading in two passes gives what reading in one pass gives. -/
theorem readAll_bind {next : β → StoreResult γ} {last : List γ}
    (h : readAll read rows = .ok answer) (hnext : readAll next answer = .ok last) :
    readAll (fun row ↦ read row >>= next) rows = .ok last := by
  induction rows generalizing answer last with
  | nil =>
    cases h
    exact hnext
  | cons row rows ih =>
    obtain ⟨first, hfirst, h⟩ := bind_eq_ok.mp h
    obtain ⟨rest, hrest, h⟩ := bind_eq_ok.mp h
    obtain rfl := pure_eq_ok.mp h
    obtain ⟨found, hfound, hnext⟩ := bind_eq_ok.mp hnext
    obtain ⟨others, hothers, hnext⟩ := bind_eq_ok.mp hnext
    obtain rfl := pure_eq_ok.mp hnext
    have hread : (read row >>= next) = .ok found := bind_eq_ok.mpr ⟨first, hfirst, hfound⟩
    exact bind_eq_ok.mpr ⟨found, hread, bind_eq_ok.mpr ⟨others, ih hrest hothers, rfl⟩⟩

/-- Selecting rows selects what is read from them, if the two agree on rows that can be read. -/
theorem readable_filter {keep : α → Bool} {holds : β → Bool}
    (hkeep : ∀ a b, read a = .ok b → keep a = holds b) :
    readable read (rows.filter keep) = (readable read rows).filter holds := by
  rw [readable, readable, List.filterMap_filter, List.filter_filterMap]
  congr 1
  funext row
  cases hrow : read row with
  | error error => simp [Except.toOption]
  | ok b => simp [Except.toOption, hkeep row b hrow, Option.filter]

/-- Nothing is left out where all rows can be read. -/
theorem map_toOption (h : ∀ a ∈ rows, ∃ b, read a = .ok b) :
    rows.map (fun row ↦ (read row).toOption) = (readable read rows).map some := by
  induction rows with
  | nil => rfl
  | cons row rows ih =>
    obtain ⟨first, hfirst⟩ := h row List.mem_cons_self
    have hrest := ih fun a ha ↦ h a (List.mem_cons_of_mem _ ha)
    rw [readable_cons hfirst, List.map_cons, List.map_cons, hrest, toOption_eq_some.mpr hfirst]

/-- Sorting rows sorts what is read from them, if all can be read and compare as what is read. -/
theorem readable_mergeSort {before : α → α → Bool} {after : β → β → Bool}
    (hread : ∀ a ∈ rows, ∃ b, read a = .ok b)
    (hcompare : ∀ a b a' b', read a = .ok a' → read b = .ok b' → before a b = after a' b') :
    readable read (rows.mergeSort before) = (readable read rows).mergeSort after := by
  have hsorted : ∀ a ∈ rows.mergeSort before, ∃ b, read a = .ok b :=
    fun a ha ↦ hread a (List.mem_mergeSort.mp ha)
  apply (List.map_inj_right fun _ _ ↦ Option.some.inj).mp
  calc
    (readable read (rows.mergeSort before)).map some =
        (rows.mergeSort before).map fun row ↦ (read row).toOption := (map_toOption hsorted).symm
    _ = (rows.map fun row ↦ (read row).toOption).mergeSort
        fun a b ↦ a.all fun a ↦ b.all (after a) := by
      apply List.map_mergeSort
      intro a ha b hb
      obtain ⟨a', ha'⟩ := hread a ha
      obtain ⟨b', hb'⟩ := hread b hb
      rw [ha', hb']
      exact hcompare a b a' b' ha' hb'
    _ = ((readable read rows).map some).mergeSort fun a b ↦ a.all fun a ↦ b.all (after a) := by
      rw [map_toOption hread]
    _ = ((readable read rows).mergeSort after).map some := by
      symm
      apply List.map_mergeSort
      exact fun _ _ _ _ ↦ rfl

end Readable

namespace Log

variable {ρ : Type} [Row ρ]

theorem filter_sortRows_id (rows : List ρ) (id : Int) :
    (sortRows rows).filter (rowId · = id) = rows.filter (rowId · = id) :=
  filter_mergeSort_key rows id

/-- Rows that are left out make no difference to the order of the others. -/
theorem filter_sortRows (keep : ρ → Bool) (rows : List ρ) :
    (sortRows rows).filter keep = sortRows (rows.filter keep) := by
  apply eq_of_filter_key_eq ((pairwise_sortRows rows).filter keep) (pairwise_sortRows _)
  intro id
  have hswap (l : List ρ) :
      (l.filter keep).filter (rowId · = id) = (l.filter (rowId · = id)).filter keep := by
    simp only [List.filter_filter, Bool.and_comm]
  rw [hswap, filter_sortRows_id, filter_sortRows_id, hswap]

end Log

namespace Cell

variable {index : Nat} {column : String} {cell : Cell}

theorem eq_integer_of_readInteger {n : Int} (h : cell.readInteger index column = .ok n) :
    cell = .integer n := by
  cases cell <;> simp_all [readInteger]

theorem eq_text_of_readText {s : String} (h : cell.readText index column = .ok s) :
    cell = .text s := by
  cases cell <;> simp_all [readText]

/-- Whole numbers compare by size. -/
theorem compare_integer (m n : Int) :
    (integer m).compare (integer n) = Ord.compare m n := by
  have hscale (k : Nat) : Ord.compare (m * Int.pow 2 k) (n * Int.pow 2 k) = Ord.compare m n := by
    have hpos : 0 < Int.pow 2 k := Int.pow_pos (by decide)
    rcases Int.lt_trichotomy m n with h | rfl | h
    · rw [Int.compare_eq_lt.mpr h, Int.compare_eq_lt.mpr (Int.mul_lt_mul_of_pos_right h hpos)]
    · rw [Int.compare_eq_eq.mpr rfl, Int.compare_eq_eq.mpr rfl]
    · rw [Int.compare_eq_gt.mpr h, Int.compare_eq_gt.mpr (Int.mul_lt_mul_of_pos_right h hpos)]
  exact hscale 1074

theorem le_integer (m n : Int) : (integer m).le (integer n) = decide (m ≤ n) := by
  rw [le, compare_integer, Bool.eq_iff_iff, bne_iff_ne, decide_eq_true_iff, Ne,
    Int.compare_eq_gt, Int.not_lt]

end Cell

/-- The columns of any row by which rows are sorted and matched. -/
theorem HeaderCells.columns_of_read {cells : HeaderCells} {header : Header}
    (h : cells.read = .ok header) :
    cells.id = .integer header.id ∧ cells.fnTag = .text header.fnTag := by
  obtain ⟨id, hid, h⟩ := bind_eq_ok.mp h
  obtain ⟨pid, -, h⟩ := bind_eq_ok.mp h
  obtain ⟨time, -, h⟩ := bind_eq_ok.mp h
  obtain ⟨component, -, h⟩ := bind_eq_ok.mp h
  obtain ⟨fnTag, hfnTag, h⟩ := bind_eq_ok.mp h
  obtain ⟨smTag, -, h⟩ := bind_eq_ok.mp h
  obtain ⟨entityType, -, h⟩ := bind_eq_ok.mp h
  obtain rfl := pure_eq_ok.mp h
  exact ⟨Cell.eq_integer_of_readInteger hid, Cell.eq_text_of_readText hfnTag⟩

/-- The columns of a map row that name operations. -/
theorem MapCells.columns_of_read {cells : MapCells} {row : MapRow} (h : cells.read = .ok row) :
    cells.dst = .integer row.dst ∧ cells.clr = .integer row.clr := by
  obtain ⟨header, -, h⟩ := bind_eq_ok.mp h
  obtain ⟨mapName, -, h⟩ := bind_eq_ok.mp h
  obtain ⟨src, -, h⟩ := bind_eq_ok.mp h
  obtain ⟨dst, hdst, h⟩ := bind_eq_ok.mp h
  obtain ⟨clr, hclr, h⟩ := bind_eq_ok.mp h
  obtain rfl := pure_eq_ok.mp h
  exact ⟨Cell.eq_integer_of_readInteger hdst, Cell.eq_integer_of_readInteger hclr⟩

theorem WordedState.eq_of_understand {worded : WordedState} {row : StateRow}
    (h : worded.understand = .ok row) :
    row.toHeader = worded.toHeader ∧ row.opid = worded.opid := by
  unfold understand at h
  split at h
  · cases h
    exact ⟨rfl, rfl⟩
  · cases h

def StateCells.readRow (cells : StateCells) : StoreResult StateRow :=
  cells.read >>= WordedState.understand

/-- The columns of a state row by which state rows are sorted, matched and selected. -/
theorem StateCells.columns_of_readRow {cells : StateCells} {row : StateRow}
    (h : cells.readRow = .ok row) : cells.id = .integer row.id ∧
      cells.fnTag = .text row.fnTag ∧ cells.opid = .integer row.opid := by
  obtain ⟨worded, hread, hworded⟩ := bind_eq_ok.mp h
  obtain ⟨hheader, hopid⟩ := WordedState.eq_of_understand hworded
  obtain ⟨header, hcells, hread⟩ := bind_eq_ok.mp hread
  obtain ⟨opid, hcell, hread⟩ := bind_eq_ok.mp hread
  obtain ⟨word, -, hread⟩ := bind_eq_ok.mp hread
  obtain rfl := pure_eq_ok.mp hread
  obtain ⟨hid, hfnTag⟩ := HeaderCells.columns_of_read hcells
  rw [hopid, hheader]
  exact ⟨hid, hfnTag, Cell.eq_integer_of_readInteger hcell⟩

namespace Database

theorem getD_of_rowsOf {α : Type} {table : Option (List α)} {name : String} {rows : List α}
    (h : rowsOf table name = .ok rows) : table.getD [] = rows := by
  cases table with
  | none => cases h
  | some cells => exact Except.ok.inj h

def readableMaps (db : Database) : List MapRow := readable MapCells.read (db.maps.getD [])

/-- The map rows that name an operation in one column. -/
theorem mem_of_answerMaps {db : Database} {column : MapCells → Cell} {value : MapRow → OpId}
    (hcolumn : ∀ cells row, cells.read = .ok row → column cells = .integer (value row))
    {opid : OpId} {rows : List MapRow}
    (h : db.answerMaps (fun cells ↦ (column cells).isNumber opid) = .ok rows) (row : MapRow) :
    row ∈ rows ↔ row ∈ db.readableMaps ∧ value row = opid := by
  obtain ⟨table, htable, h⟩ := bind_eq_ok.mp h
  rw [mem_readAll h, readableMaps, mem_readable, getD_of_rowsOf htable]
  simp only [select, List.mem_mergeSort, List.mem_filter]
  constructor
  · rintro ⟨cells, ⟨hmem, hkeep⟩, hread⟩
    rw [hcolumn cells row hread] at hkeep
    exact ⟨⟨cells, hmem, hread⟩, by simpa [Cell.isNumber] using hkeep⟩
  · rintro ⟨⟨cells, hmem, hread⟩, rfl⟩
    exact ⟨cells, ⟨hmem, by simp [hcolumn cells row hread, Cell.isNumber]⟩, hread⟩

/-- A database serves the map rows that can be read, if each question has an answer. -/
theorem serves {db : Database} (hstates : ∀ opid, ∃ rows, db.toStore.statesOf opid = .ok rows)
    (hattributes : ∀ opid, ∃ rows, db.toStore.attributesOf opid = .ok rows)
    (hinto : ∀ opid, ∃ rows, db.toStore.mapsInto opid = .ok rows)
    (hcleared : ∀ opid, ∃ rows, db.toStore.mapsClearedBy opid = .ok rows) :
    db.toStore.Serves db.readableMaps where
  states := hstates
  attributes := hattributes
  into opid := by
    obtain ⟨rows, hrows⟩ := hinto opid
    have hcolumn (cells : MapCells) (row : MapRow) (hread : cells.read = .ok row) :=
      (MapCells.columns_of_read hread).1
    exact ⟨rows, hrows, mem_of_answerMaps hcolumn hrows⟩
  clearedBy opid := by
    obtain ⟨rows, hrows⟩ := hcleared opid
    have hcolumn (cells : MapCells) (row : MapRow) (hread : cells.read = .ok row) :=
      (MapCells.columns_of_read hread).2
    exact ⟨rows, hrows, mem_of_answerMaps hcolumn hrows⟩

/-- The state rows that can be read, in the order of their numbers. -/
def readableStates (db : Database) : List StateRow :=
  Log.sortRows (readable StateCells.readRow (db.states.getD []))

/-- The answer to a question about state rows. -/
theorem eq_filter_of_answerStates {db : Database} {keep : StateCells → Bool}
    {holds : StateRow → Bool}
    (hkeep : ∀ cells row, cells.readRow = .ok row → keep cells = holds row) {rows : List StateRow}
    (h : db.answerStates keep = .ok rows) : rows = db.readableStates.filter holds := by
  obtain ⟨table, htable, h⟩ := bind_eq_ok.mp h
  obtain ⟨worded, hworded, h⟩ := bind_eq_ok.mp h
  have hanswer : readAll StateCells.readRow (select (·.id) keep table) = .ok rows :=
    readAll_bind hworded h
  have hread : ∀ cells ∈ table.filter keep, ∃ row, cells.readRow = .ok row :=
    fun cells hcells ↦ exists_read_of_readAll hanswer (List.mem_mergeSort.mpr hcells)
  have hcompare (a b : StateCells) (a' b' : StateRow) (ha : a.readRow = .ok a')
      (hb : b.readRow = .ok b') : a.id.le b.id = decide (rowId a' ≤ rowId b') := by
    rw [(StateCells.columns_of_readRow ha).1, (StateCells.columns_of_readRow hb).1, Cell.le_integer]
    rfl
  calc
    rows = readable StateCells.readRow (select (·.id) keep table) := eq_readable_of_readAll hanswer
    _ = Log.sortRows (readable StateCells.readRow (table.filter keep)) :=
      readable_mergeSort hread hcompare
    _ = db.readableStates.filter holds := by
      rw [readable_filter hkeep, readableStates, getD_of_rowsOf htable, Log.filter_sortRows]

/-- A database serves the state rows that can be read, if each question about an operation has an
answer. -/
theorem servesStates {db : Database}
    (hstates : ∀ opid, ∃ rows, db.toStore.statesOf opid = .ok rows) :
    db.toStore.ServesStates (fun pattern tag ↦ (Cell.text tag).isMatched pattern)
      db.readableStates where
  about opid := by
    obtain ⟨rows, hrows⟩ := hstates opid
    rw [hrows, statesAbout]
    congr 1
    refine eq_filter_of_answerStates (fun cells row hrow ↦ ?_) hrows
    rw [(StateCells.columns_of_readRow hrow).2.2]
    rfl
  tagged pattern rows h := by
    obtain ⟨_, -, h⟩ := bind_eq_ok.mp h
    refine eq_filter_of_answerStates (fun cells row hrow ↦ ?_) h
    rw [(StateCells.columns_of_readRow hrow).2.1]

end Database

end OpTrace

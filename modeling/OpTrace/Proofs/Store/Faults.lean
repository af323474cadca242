import OpTrace.Proofs.Store.Writing

/-!
# Faults of cells and of rows

The cells of a table may hold values of any kind. Values of all kinds are in one order, so that rows
can be sorted by a column whatever it holds. Reading a row fails with the first column, from left to
right, that does not take its cell. Otherwise it gives the row whose cells these are.

An answer is described by a fault that there may be and by what comes without one. Where questions
follow each other the first fault is the one that counts.
-/

namespace OpTrace

namespace Cell

/-- The characters of a text, none for any other value. -/
def characters : Cell → String
  | text s => s
  | _ => ""

/-- The numbers of bytes, none for any other value. -/
def octets : Cell → List Nat
  | blob bytes => bytes.map UInt8.toNat
  | _ => []

@[simp] theorem scaled_text (s : String) : (text s).scaled = 0 := rfl

@[simp] theorem scaled_blob (bytes : List UInt8) : (blob bytes).scaled = 0 := rfl

/-- Values are compared by four keys in turn. -/
theorem compare_eq_compareLex :
    Cell.compare = compareLex (compareOn rank) (compareLex (compareOn scaled)
      (compareLex (compareOn characters) (compareOn octets))) := by
  funext a b
  -- numbers keep their scaled values folded, since these have more than a thousand bits
  cases a <;> cases b <;>
    simp [Cell.compare, compareLex, compareOn, rank, characters, octets, Nat.compare_eq_ite_lt]

instance : Std.TransCmp Cell.compare := by
  rw [compare_eq_compareLex]
  infer_instance

theorem le_eq_isLE (a b : Cell) : a.le b = (a.compare b).isLE := by
  unfold le
  cases a.compare b <;> rfl

theorem le_trans {a b c : Cell} (hab : a.le b = true) (hbc : b.le c = true) : a.le c = true := by
  rw [le_eq_isLE] at *
  exact Std.TransCmp.isLE_trans hab hbc

theorem le_total (a b : Cell) : (a.le b || b.le a) = true := by
  have hswap : b.compare a = (a.compare b).swap := Std.OrientedCmp.eq_swap
  rw [le_eq_isLE, le_eq_isLE, hswap]
  cases a.compare b <;> rfl

end Cell

namespace Database

variable {γ : Type}

theorem perm_select (number : γ → Cell) (keep : γ → Bool) (table : List γ) :
    (select number keep table).Perm (table.filter keep) :=
  List.mergeSort_perm _ _

theorem pairwise_select (number : γ → Cell) (keep : γ → Bool) (table : List γ) :
    (select number keep table).Pairwise fun a b ↦ (number a).le (number b) = true := by
  unfold select
  apply List.pairwise_mergeSort
  · exact fun a b c ↦ Cell.le_trans
  · exact fun a b ↦ (number a).le_total (number b)

end Database

/-- What the reader of a column asks for. -/
inductive ColumnKind where
  | number
  | text
  /-- a text that may be absent -/
  | optionalText
  | anything
  deriving DecidableEq

def ColumnKind.takes : ColumnKind → CellKind → Bool
  | number, kind => kind = .integer
  | text, kind => kind = .text
  | optionalText, kind => kind = .text ∨ kind = .null
  | anything, _ => true

/-- A cell with the column in which it stands. -/
structure Column where
  name : String
  wanted : ColumnKind
  cell : Cell

/-- The error if the column, at place `index` of its row, does not take its cell. -/
def Column.fault? (column : Column) (index : Nat) : Option StoreError :=
  if column.wanted.takes column.cell.kind then none
  else some (.columnType column.cell.kind index column.name)

theorem Column.fault?_eq_some {column : Column} {index : Nat} {error : StoreError} :
    column.fault? index = some error ↔ column.wanted.takes column.cell.kind = false ∧
      error = .columnType column.cell.kind index column.name := by
  unfold fault?
  split <;> simp [*, eq_comm]

/-- The error of the first column that does not take its cell. The columns are the ones from place
`start` on. -/
def firstFault? (start : Nat) (columns : List Column) : Option StoreError :=
  (columns.zipIdx start).findSome? fun (column, index) ↦ column.fault? index

theorem findSome?_cons_eq_or {α β : Type} (f : α → Option β) (a : α) (l : List α) :
    (a :: l).findSome? f = (f a).or (l.findSome? f) := by
  rw [List.findSome?_cons]
  cases f a <;> rfl

theorem firstFault?_cons (start : Nat) (first : Column) (columns : List Column) :
    firstFault? start (first :: columns) =
      (first.fault? start).or (firstFault? (start + 1) columns) := by
  rw [firstFault?, List.zipIdx_cons, findSome?_cons_eq_or]
  rfl

theorem firstFault?_append (start : Nat) (columns more : List Column) :
    firstFault? start (columns ++ more) =
      (firstFault? start columns).or (firstFault? (start + columns.length) more) := by
  rw [firstFault?, List.zipIdx_append, List.findSome?_append]
  rfl

/-- The answer is the error if there is a fault, and otherwise something good. -/
structure EndsIn {β : Type} (fault : Option StoreError) (good : β → Prop)
    (answer : StoreResult β) : Prop where
  error : ∀ error, fault = some error → answer = .error error
  ok : fault = none → ∃ b, answer = .ok b ∧ good b

namespace EndsIn

variable {α β : Type} {fault later : Option StoreError} {good : α → Prop} {better : β → Prop}
  {answer : StoreResult α} {next : α → StoreResult β}

theorem of_good {b : β} (h : better b) : EndsIn none better (.ok b) where
  error _ h := by cases h
  ok _ := ⟨b, rfl, h⟩

theorem of_fault (error : StoreError) : EndsIn (some error) better (.error error) where
  error _ h := congrArg Except.error (Option.some.inj h)
  ok h := by cases h

theorem imp {fair : α → Prop} (h : EndsIn fault good answer) (himp : ∀ a, good a → fair a) :
    EndsIn fault fair answer where
  error := h.error
  ok hfault := by
    obtain ⟨a, ha, hgood⟩ := h.ok hfault
    exact ⟨a, ha, himp a hgood⟩

/-- A question that goes on fails with the first of two faults. -/
theorem bind (h : EndsIn fault good answer) (hnext : ∀ a, good a → EndsIn later better (next a)) :
    EndsIn (fault.or later) better (answer >>= next) := by
  cases fault with
  | some error =>
    rw [h.error error rfl]
    exact .of_fault error
  | none =>
    obtain ⟨a, rfl, ha⟩ := h.ok rfl
    exact hnext a ha

/-- Columns are read from left to right. -/
theorem column {start : Nat} {first : Column} {columns : List Column}
    (h : EndsIn (first.fault? start) good answer)
    (hnext : ∀ a, good a → EndsIn (firstFault? (start + 1) columns) better (next a)) :
    EndsIn (firstFault? start (first :: columns)) better (answer >>= next) := by
  rw [firstFault?_cons]
  exact h.bind hnext

/-- Rows are read one after the other. -/
theorem rows {γ : Type} (written : β → γ) (shown : α → γ) {fault? : α → Option StoreError}
    {read : α → StoreResult β}
    (h : ∀ a, EndsIn (fault? a) (fun b ↦ written b = shown a) (read a)) (table : List α) :
    EndsIn (table.findSome? fault?) (fun answer ↦ answer.map written = table.map shown)
      (readAll read table) := by
  induction table with
  | nil => exact .of_good rfl
  | cons a table ih =>
    rw [findSome?_cons_eq_or, ← Option.or_none (o := table.findSome? fault?)]
    refine (h a).bind fun b hb ↦ ih.bind fun rest hrest ↦ .of_good ?_
    rw [List.map_cons, List.map_cons, hb, hrest]

/-- An error is the fault of one of the rows. -/
theorem exists_of_error {fault? : α → Option StoreError} {table : List α} {error : StoreError}
    (h : EndsIn (table.findSome? fault?) better (.error error)) :
    ∃ a ∈ table, fault? a = some error := by
  cases hfault : table.findSome? fault? with
  | none =>
    obtain ⟨b, hb, -⟩ := h.ok hfault
    cases hb
  | some first =>
    obtain rfl : error = first := Except.error.inj (h.error first hfault)
    exact List.exists_of_findSome?_eq_some hfault

end EndsIn

namespace Cell

theorem endsIn_readInteger (cell : Cell) (index : Nat) (name : String) :
    EndsIn (Column.fault? ⟨name, .number, cell⟩ index) (fun n ↦ cell = .integer n)
      (cell.readInteger index name) := by
  cases cell with
  | integer n => exact .of_good rfl
  | _ => exact .of_fault _

theorem endsIn_readText (cell : Cell) (index : Nat) (name : String) :
    EndsIn (Column.fault? ⟨name, .text, cell⟩ index) (fun s ↦ cell = .text s)
      (cell.readText index name) := by
  cases cell with
  | text s => exact .of_good rfl
  | _ => exact .of_fault _

theorem endsIn_readOptionalText (cell : Cell) (index : Nat) (name : String) :
    EndsIn (Column.fault? ⟨name, .optionalText, cell⟩ index) (fun s ↦ cell = s.elim .null .text)
      (cell.readOptionalText index name) := by
  cases cell with
  | null => exact .of_good rfl
  | text s => exact .of_good rfl
  | _ => exact .of_fault _

end Cell

def HeaderCells.columns (cells : HeaderCells) : List Column :=
  [⟨"id", .number, cells.id⟩, ⟨"pid", .number, cells.pid⟩, ⟨"time", .number, cells.time⟩,
    ⟨"tsdb_mod", .text, cells.component⟩, ⟨"fn_tag", .text, cells.fnTag⟩,
    ⟨"sm_tag", .optionalText, cells.smTag⟩, ⟨"entity_type", .text, cells.entityType⟩]

theorem HeaderCells.endsIn_read (cells : HeaderCells) :
    EndsIn (firstFault? 0 cells.columns) (fun header ↦ .ofHeader header = cells) cells.read := by
  unfold read columns
  refine .column (cells.id.endsIn_readInteger 0 _) fun id hid ↦ ?_
  refine .column (cells.pid.endsIn_readInteger 1 _) fun pid hpid ↦ ?_
  refine .column (cells.time.endsIn_readInteger 2 _) fun time htime ↦ ?_
  refine .column (cells.component.endsIn_readText 3 _) fun component hcomponent ↦ ?_
  refine .column (cells.fnTag.endsIn_readText 4 _) fun fnTag hfnTag ↦ ?_
  refine .column (cells.smTag.endsIn_readOptionalText 5 _) fun smTag hsmTag ↦ ?_
  refine .column (cells.entityType.endsIn_readText 6 _) fun entityType hentityType ↦ ?_
  refine .of_good ?_
  cases cells
  simp_all [ofHeader]

def StateCells.columns (cells : StateCells) : List Column :=
  cells.toHeaderCells.columns ++ [⟨"opid", .number, cells.opid⟩, ⟨"state_type", .text, cells.state⟩]

/-- The cells of a state row whose state is still a word. -/
def StateCells.ofWorded (row : WordedState) : StateCells where
  toHeaderCells := .ofHeader row.toHeader
  opid := .integer row.opid
  state := .text row.word

theorem StateCells.endsIn_read (cells : StateCells) :
    EndsIn (firstFault? 0 cells.columns) (fun row ↦ ofWorded row = cells) cells.read := by
  unfold read columns
  rw [firstFault?_append]
  refine cells.toHeaderCells.endsIn_read.bind fun header hheader ↦ ?_
  refine .column (cells.opid.endsIn_readInteger 7 _) fun opid hopid ↦ ?_
  refine .column (cells.state.endsIn_readText 8 _) fun word hword ↦ ?_
  refine .of_good ?_
  cases cells
  simp_all [ofWorded]

/-- The columns of an attribute row. The value may be of any kind. -/
def AttributeCells.columns (cells : AttributeCells) : List Column :=
  cells.toHeaderCells.columns ++ [⟨"opid", .number, cells.opid⟩, ⟨"attr_name", .text, cells.name⟩,
    ⟨"attr_val", .anything, cells.value⟩]

/-- The cells with the value written out as text. -/
def AttributeCells.spell (cells : AttributeCells) : AttributeCells :=
  { cells with value := .text cells.value.display }

theorem AttributeCells.endsIn_read (cells : AttributeCells) :
    EndsIn (firstFault? 0 cells.columns) (fun row ↦ ofRow row = cells.spell) cells.read := by
  unfold read columns
  rw [firstFault?_append]
  refine cells.toHeaderCells.endsIn_read.bind fun header hheader ↦ ?_
  refine .column (cells.opid.endsIn_readInteger 7 _) fun opid hopid ↦ ?_
  refine .column (cells.name.endsIn_readText 8 _) fun name hname ↦ ?_
  refine .of_good ?_
  cases cells
  simp_all [ofRow, spell]

def MapCells.columns (cells : MapCells) : List Column :=
  cells.toHeaderCells.columns ++ [⟨"map_name", .text, cells.mapName⟩,
    ⟨"src_opid", .number, cells.src⟩, ⟨"dst_opid", .number, cells.dst⟩,
    ⟨"clr_opid", .number, cells.clr⟩]

theorem MapCells.endsIn_read (cells : MapCells) :
    EndsIn (firstFault? 0 cells.columns) (fun row ↦ ofRow row = cells) cells.read := by
  unfold read columns
  rw [firstFault?_append]
  refine cells.toHeaderCells.endsIn_read.bind fun header hheader ↦ ?_
  refine .column (cells.mapName.endsIn_readText 7 _) fun mapName hmapName ↦ ?_
  refine .column (cells.src.endsIn_readInteger 8 _) fun src hsrc ↦ ?_
  refine .column (cells.dst.endsIn_readInteger 9 _) fun dst hdst ↦ ?_
  refine .column (cells.clr.endsIn_readInteger 10 _) fun clr hclr ↦ ?_
  refine .of_good ?_
  cases cells
  simp_all [ofRow]

/-- The state of a word is the one that the word names. -/
theorem StateType.name_of_ofName? {word : String} {state : StateType}
    (h : ofName? word = some state) : word = state.name := by
  unfold ofName? at h
  split at h
  · next hinit =>
    cases h
    exact hinit
  · split at h
    · next hfinish =>
      cases h
      exact hfinish
    · cases h

theorem StateType.ofName?_eq_none {word : String} :
    ofName? word = none ↔ ¬(word = "init" ∨ word = "finish") := by
  unfold ofName?
  split
  · simp [*]
  · split <;> simp [*]

/-- The error of a state row that is read but whose word is no state. -/
def StateCells.unknown? (cells : StateCells) : Option StoreError :=
  match cells.id, cells.state with
  | .integer id, .text word =>
    if word = "init" ∨ word = "finish" then none else some (.unknownState id word)
  | _, _ => none

theorem StateCells.unknown?_ofWorded (row : WordedState) :
    (ofWorded row).unknown? =
      if row.word = "init" ∨ row.word = "finish" then none
      else some (.unknownState row.id row.word) := rfl

theorem WordedState.endsIn_understand (row : WordedState) :
    EndsIn (StateCells.ofWorded row).unknown?
      (fun found ↦ StateCells.ofRow found = .ofWorded row) row.understand := by
  rw [StateCells.unknown?_ofWorded]
  unfold understand
  cases hstate : StateType.ofName? row.word with
  | none =>
    rw [if_neg (StateType.ofName?_eq_none.mp hstate)]
    exact .of_fault _
  | some state =>
    have hword : row.word = state.name := StateType.name_of_ofName? hstate
    have hknown : row.word = "init" ∨ row.word = "finish" := by
      cases state with
      | init => exact .inl hword
      | finish => exact .inr hword
    rw [if_pos hknown]
    apply EndsIn.of_good
    rw [StateCells.ofRow, StateCells.ofWorded, hword]

end OpTrace

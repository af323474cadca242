import OpTrace.Proofs.Sample
import OpTrace.Proofs.Store.Faults
import OpTrace.Proofs.Store.Grouping

/-!
# Which error comes first

A question puts the selected rows of a table in the order of their numbers and then comes to one of
three ends. If some column of a selected row does not take its cell, then the question fails with
the first such column of the first such row. Otherwise it fails with the first row that has a word
that is no state. Otherwise the answer has all selected rows. So a word that is no state gives way
to a later cell of a wrong kind, and no error comes with a part of an answer.

The operations behind a pattern are read from one column alone. Which words the state rows hold
makes no difference to them.
-/

namespace OpTrace

/-- What a table says of its rows. -/
structure Layout (γ ρ : Type) [Row ρ] where
  /-- the cell by which rows are put in order -/
  number : γ → Cell
  /-- the columns of a row in the order in which they are read -/
  columns : γ → List Column
  /-- what may be wrong with a row whose columns all take their cells -/
  unknown? : γ → Option StoreError
  /-- the cells as an answer shows them -/
  shown : γ → γ
  /-- the cells of a row of an answer -/
  written : ρ → γ
  number_shown : ∀ cells, number (shown cells) = number cells
  number_written : ∀ row, number (written row) = .integer (rowId row)

namespace Layout

variable {γ ρ : Type} [Row ρ] {layout : Layout γ ρ} {table : List γ} {keep : γ → Bool}
  {answer : StoreResult (List ρ)}

/-- The error of the first column of a row that does not take its cell. -/
def misfit? (layout : Layout γ ρ) (cells : γ) : Option StoreError :=
  firstFault? 0 (layout.columns cells)

/-- The rows of the table that a question selects, in the order of their numbers. -/
def selected (layout : Layout γ ρ) (table : List γ) (keep : γ → Bool) : List γ :=
  Database.select layout.number keep table

/-- The answer is what follows from the selected rows. A cell of a wrong kind comes before anything
else that may be wrong with any of them. -/
structure Settles (layout : Layout γ ρ) (table : List γ) (keep : γ → Bool)
    (answer : StoreResult (List ρ)) : Prop where
  perm : (layout.selected table keep).Perm (table.filter keep)
  sorted : (layout.selected table keep).Pairwise fun a b ↦
    (layout.number a).le (layout.number b) = true
  misfit : ∀ error, (layout.selected table keep).findSome? layout.misfit? = some error →
    answer = .error error
  unknown : (layout.selected table keep).findSome? layout.misfit? = none →
    ∀ error, (layout.selected table keep).findSome? layout.unknown? = some error →
      answer = .error error
  rows : (layout.selected table keep).findSome? layout.misfit? = none →
    (layout.selected table keep).findSome? layout.unknown? = none →
      ∃ rows, answer = .ok rows ∧ (rows.Pairwise fun a b ↦ rowId a ≤ rowId b) ∧
        rows.map layout.written = (layout.selected table keep).map layout.shown

/-- Rows that come from selected ones are in the order of their numbers. -/
theorem pairwise_of_map_written {rows : List ρ}
    (h : rows.map layout.written = (layout.selected table keep).map layout.shown) :
    rows.Pairwise fun a b ↦ rowId a ≤ rowId b := by
  have hselected : (layout.selected table keep).Pairwise fun a b ↦
      (layout.number a).le (layout.number b) = true :=
    Database.pairwise_select layout.number keep table
  have hshown : ((layout.selected table keep).map layout.shown).Pairwise fun a b ↦
      (layout.number a).le (layout.number b) = true := by
    rw [List.pairwise_map]
    simpa only [layout.number_shown] using hselected
  rw [← h, List.pairwise_map] at hshown
  refine hshown.imp fun hle ↦ ?_
  rw [layout.number_written, layout.number_written, Cell.le_integer] at hle
  exact of_decide_eq_true hle

theorem settles_of_endsIn
    (h : EndsIn (((layout.selected table keep).findSome? layout.misfit?).or
        ((layout.selected table keep).findSome? layout.unknown?))
      (fun rows ↦ rows.map layout.written = (layout.selected table keep).map layout.shown)
      answer) :
    layout.Settles table keep answer where
  perm := Database.perm_select layout.number keep table
  sorted := Database.pairwise_select layout.number keep table
  misfit error hmisfit := h.error error (by rw [hmisfit, Option.some_or])
  unknown hmisfit error hunknown := h.error error (by rw [hmisfit, hunknown, Option.none_or])
  rows hmisfit hunknown := by
    obtain ⟨rows, hrows, hwritten⟩ := h.ok (by rw [hmisfit, hunknown, Option.none_or])
    exact ⟨rows, hrows, pairwise_of_map_written hwritten, hwritten⟩

/-- A table whose rows are understood as soon as they are read. -/
theorem settles_readAll {read : γ → StoreResult ρ}
    (hread : ∀ cells, EndsIn (layout.misfit? cells)
      (fun row ↦ layout.written row = layout.shown cells) (read cells))
    (hunknown : ∀ cells, layout.unknown? cells = none) :
    layout.Settles table keep (readAll read (layout.selected table keep)) := by
  apply settles_of_endsIn
  have hnone : (layout.selected table keep).findSome? layout.unknown? = none :=
    List.findSome?_eq_none_iff.mpr fun cells _ ↦ hunknown cells
  rw [hnone, Option.or_none]
  exact .rows layout.written layout.shown hread _

end Layout

/-- State rows are understood after they are read, and may have words that are no states. -/
def StateCells.layout : Layout StateCells StateRow where
  number := (·.id)
  columns := columns
  unknown? := unknown?
  shown := id
  written := ofRow
  number_shown _ := rfl
  number_written _ := rfl

/-- The values of attribute rows are shown as texts. -/
def AttributeCells.layout : Layout AttributeCells AttributeRow where
  number := (·.id)
  columns := columns
  unknown? _ := none
  shown := spell
  written := ofRow
  number_shown _ := rfl
  number_written _ := rfl

def MapCells.layout : Layout MapCells MapRow where
  number := (·.id)
  columns := columns
  unknown? _ := none
  shown := id
  written := ofRow
  number_shown _ := rfl
  number_written _ := rfl

/-- The words of state rows are understood once all rows are read. -/
theorem StateCells.settles_readAll (states : List StateCells) (keep : StateCells → Bool) :
    layout.Settles states keep
      (readAll read (layout.selected states keep) >>= readAll WordedState.understand) := by
  apply Layout.settles_of_endsIn
  have hread := EndsIn.rows ofWorded id endsIn_read (layout.selected states keep)
  rw [List.map_id] at hread
  refine hread.bind fun worded hworded ↦ ?_
  have hunknown : (layout.selected states keep).findSome? layout.unknown? =
      worded.findSome? fun row ↦ (ofWorded row).unknown? := by
    rw [← hworded, List.findSome?_map]
    rfl
  rw [hunknown]
  refine (EndsIn.rows ofRow ofWorded WordedState.endsIn_understand worded).imp fun rows hrows ↦ ?_
  calc
    rows.map ofRow = worded.map ofWorded := hrows
    _ = layout.selected states keep := hworded
    _ = (layout.selected states keep).map layout.shown := (List.map_id _).symm

namespace Database

/-! ## Operations behind a pattern -/

/-- Cutting a list into runs looks at what is compared only. -/
theorem splitBy_map {α β : Type} (f : α → β) (same : β → β → Bool) (l : List α) :
    (l.map f).splitBy same = (l.splitBy fun a b ↦ same (f a) (f b)).map (List.map f) := by
  rw [List.splitBy_eq_iff]
  refine ⟨?_, ?_, ?_, ?_⟩
  · rw [← List.map_flatten, List.flatten_splitBy]
  · simp [List.nil_notMem_splitBy]
  · intro run hrun
    obtain ⟨part, hpart, rfl⟩ := List.mem_map.mp hrun
    rw [List.isChain_map]
    exact List.isChain_of_mem_splitBy hpart
  · rw [List.isChain_map]
    refine (List.isChain_getLast_head_splitBy _ l).imp fun run next h ↦ ?_
    obtain ⟨hrun, hnext, h⟩ := h
    exact ⟨by simpa using hrun, by simpa using hnext, by simpa using h⟩

def Group.map (f : StateCells → StateCells) (group : Group) : Group := ⟨group.rows.map f⟩

section Words

variable {f : StateCells → StateCells} (hid : ∀ cells, (f cells).id = cells.id)
  (hopid : ∀ cells, (f cells).opid = cells.opid)
include hid

theorem Group.leader_map (group : Group) : (group.map f).leader = group.leader.map f := by
  have hfilter : (group.rows.map f).filter (·.id ≠ .null) =
      (group.rows.filter (·.id ≠ .null)).map f := by
    rw [List.filter_map]
    simp only [Function.comp_def, hid]
  unfold leader map
  simp only [hfilter]
  cases group.rows.filter (·.id ≠ .null) with
  | nil => exact List.getLast?_map
  | cons first rest =>
    simp only [List.map_cons, List.foldl_map, Option.map_some, Option.some.injEq]
    apply List.foldl_hom
    intro best row
    rw [hid, hid, apply_ite f]

theorem Group.number_map (group : Group) : (group.map f).number = group.number := by
  unfold number
  rw [leader_map hid]
  cases group.leader with
  | none => rfl
  | some leader => exact hid leader

include hopid

theorem groups_map (rows : List StateCells) :
    groups (rows.map f) = (groups rows).map (·.map f) := by
  unfold groups
  have hsorted : (rows.map f).mergeSort (fun a b ↦ a.opid.le b.opid) =
      (rows.mergeSort fun a b ↦ a.opid.le b.opid).map f := by
    symm
    apply List.map_mergeSort
    intro a _ b _
    rw [hopid, hopid]
  simp only [hsorted, splitBy_map, hopid, List.map_map]
  rw [List.map_mergeSort (s := fun a b ↦ a.number.le b.number) fun a _ b _ ↦ by
    rw [Group.number_map hid, Group.number_map hid], List.map_map]
  rfl

theorem filterMap_leader_map (rows : List StateCells) :
    (groups (rows.map f)).filterMap Group.leader =
      ((groups rows).filterMap Group.leader).map f := by
  rw [groups_map hid hopid, List.filterMap_map, List.map_filterMap]
  congr 1
  funext group
  exact group.leader_map hid

end Words

/-- The database with other cells in the place of the words of state rows. -/
def reword (db : Database) (word : StateCells → Cell) : Database :=
  { db with states := db.states.map (List.map fun cells ↦ { cells with state := word cells }) }

theorem answerOpids_eq {db : Database} {states : List StateCells}
    (htable : db.states = some states) (keep : StateCells → Bool) :
    db.answerOpids keep = readAll (fun row ↦ row.opid.readInteger 0 "opid")
      ((groups (states.filter keep)).filterMap Group.leader) := by
  unfold answerOpids
  rw [htable]
  rfl

theorem answerOpids_reword (db : Database) (word : StateCells → Cell) (keep : StateCells → Bool)
    (hkeep : ∀ cells, keep { cells with state := word cells } = keep cells) :
    (db.reword word).answerOpids keep = db.answerOpids keep := by
  cases htable : db.states with
  | none => rw [answerOpids, answerOpids, reword, htable, Option.map_none]
  | some states =>
    let f (cells : StateCells) : StateCells := { cells with state := word cells }
    have hreword : (db.reword word).states = some (states.map f) := by rw [reword, htable]; rfl
    have hfilter : (states.map f).filter keep = (states.filter keep).map f := by
      rw [List.filter_map]
      congr 2
      funext cells
      exact hkeep cells
    rw [answerOpids_eq hreword, answerOpids_eq htable, hfilter,
      filterMap_leader_map (f := f) (fun _ ↦ rfl) (fun _ ↦ rfl), readAll_map]

theorem checkPattern_reword (db : Database) (word : StateCells → Cell) (pattern : TagPattern) :
    (db.reword word).checkPattern pattern = db.checkPattern pattern := by
  unfold checkPattern reword
  cases db.states with
  | none => rfl
  | some states => simp

/-- The operations behind a pattern do not depend on the words of state rows. -/
theorem opidsTagged_reword (db : Database) (word : StateCells → Cell) (pattern : TagPattern)
    (window : Window) :
    (db.reword word).toStore.opidsTagged pattern window =
      db.toStore.opidsTagged pattern window := by
  have hanswer := answerOpids_reword db word (·.fnTag.isMatched pattern) fun _ ↦ rfl
  simp only [toStore, checkPattern_reword, hanswer]

/-- Of several rows one is picked. -/
theorem foldl_pick_mem {α : Type} (better : α → α → Prop) [DecidableRel better] (first : α)
    (rest : List α) :
    rest.foldl (fun best row ↦ if better row best then row else best) first ∈ first :: rest := by
  induction rest generalizing first with
  | nil => exact List.mem_cons_self
  | cons second rest ih =>
    rw [List.foldl_cons]
    split
    · exact List.mem_cons_of_mem _ (ih second)
    · exact List.cons_subset_cons first (List.subset_cons_self second rest) (ih first)

/-- A leader is a row of its group, whatever its number is. -/
theorem Group.mem_of_leader {group : Group} {leader : StateCells} (h : group.leader = some leader) :
    leader ∈ group.rows := by
  unfold Group.leader at h
  simp only at h
  split at h
  · exact List.mem_of_getLast? h
  · next first rest hnumbered =>
    apply List.filter_subset_self
    rw [hnumbered, ← Option.some.inj h]
    exact foldl_pick_mem (fun row best ↦ row.id.compare best.id = .lt) first rest

/-- The leaders of groups are rows of the table. -/
theorem mem_of_mem_leaders {rows : List StateCells} {leader : StateCells}
    (h : leader ∈ (groups rows).filterMap Group.leader) : leader ∈ rows := by
  obtain ⟨group, hgroup, hleader⟩ := List.mem_filterMap.mp h
  obtain ⟨run, hrun, rfl⟩ := List.mem_map.mp (List.mem_mergeSort.mp hgroup)
  exact List.mem_mergeSort.mp (mem_of_mem_splitBy hrun (Group.mem_of_leader hleader))

/-- Only the operation of a selected row can be at fault. -/
theorem exists_of_answerOpids_eq_error {db : Database} {states : List StateCells}
    (htable : db.states = some states) {keep : StateCells → Bool} {error : StoreError}
    (h : db.answerOpids keep = .error error) :
    ∃ cells ∈ states, keep cells = true ∧ cells.opid.kind ≠ .integer ∧
      error = .columnType cells.opid.kind 0 "opid" := by
  rw [answerOpids_eq htable] at h
  have hread := EndsIn.rows Cell.integer StateCells.opid
    (fun row ↦ (row.opid.endsIn_readInteger 0 "opid").imp fun _ ↦ Eq.symm)
    ((groups (states.filter keep)).filterMap Group.leader)
  rw [h] at hread
  obtain ⟨leader, hleader, hfault⟩ := hread.exists_of_error
  obtain ⟨htakes, rfl⟩ := Column.fault?_eq_some.mp hfault
  obtain ⟨hmem, hkeep⟩ := List.mem_filter.mp (mem_of_mem_leaders hleader)
  exact ⟨leader, hmem, hkeep, of_decide_eq_false htakes, rfl⟩

/-- A pattern is refused if it is too long and there is a row for it to meet. -/
theorem checkPattern_eq {db : Database} {states : List StateCells}
    (htable : db.states = some states) (pattern : TagPattern) :
    db.checkPattern pattern =
      if patternBound < pattern.text.utf8ByteSize ∧ states ≠ [] then .error .longPattern
      else .ok () := by
  unfold checkPattern
  rw [htable]
  simp

theorem exists_of_opidsTagged_eq_error {db : Database} {states : List StateCells}
    (htable : db.states = some states) {pattern : TagPattern} {window : Window}
    {error : StoreError} (h : db.toStore.opidsTagged pattern window = .error error) :
    error = .longPattern ∧ patternBound < pattern.text.utf8ByteSize ∨
      ∃ cells ∈ states, cells.fnTag.isMatched pattern = true ∧ cells.opid.kind ≠ .integer ∧
        error = .columnType cells.opid.kind 0 "opid" := by
  rcases bind_eq_error.mp h with hcheck | ⟨_, -, hanswer⟩
  · rw [checkPattern_eq htable] at hcheck
    split at hcheck
    · next hlong =>
      cases hcheck
      exact .inl ⟨rfl, hlong.1⟩
    · cases hcheck
  · rcases bind_eq_error.mp hanswer with hanswer | ⟨_, -, hwindow⟩
    · exact .inr (exists_of_answerOpids_eq_error htable hanswer)
    · cases hwindow

/-! ## The questions to a database -/

/-- Every question about rows of the tables settles. The operations behind a pattern are found
whatever the words of the state rows are. -/
structure Settles (db : Database) (states : List StateCells) (attributes : List AttributeCells)
    (maps : List MapCells) : Prop where
  statesOf : ∀ opid, StateCells.layout.Settles states (·.opid.isNumber opid)
    (db.toStore.statesOf opid)
  statesTagged : ∀ pattern : TagPattern,
    pattern.text.utf8ByteSize ≤ patternBound ∨ states = [] →
      StateCells.layout.Settles states (·.fnTag.isMatched pattern)
        (db.toStore.statesTagged pattern)
  statesTagged_long : ∀ pattern : TagPattern,
    patternBound < pattern.text.utf8ByteSize → states ≠ [] →
      db.toStore.statesTagged pattern = .error .longPattern
  attributesOf : ∀ opid, AttributeCells.layout.Settles attributes (·.opid.isNumber opid)
    (db.toStore.attributesOf opid)
  mapsInto : ∀ opid, MapCells.layout.Settles maps (·.dst.isNumber opid) (db.toStore.mapsInto opid)
  mapsFrom : ∀ opid, MapCells.layout.Settles maps (·.src.isNumber opid) (db.toStore.mapsFrom opid)
  mapsClearedBy : ∀ opid, MapCells.layout.Settles maps (·.clr.isNumber opid)
    (db.toStore.mapsClearedBy opid)
  opidsTagged_reword : ∀ (word : StateCells → Cell) (pattern : TagPattern) (window : Window),
    (db.reword word).toStore.opidsTagged pattern window = db.toStore.opidsTagged pattern window
  opidsTagged_error : ∀ (pattern : TagPattern) (window : Window) (error : StoreError),
    db.toStore.opidsTagged pattern window = .error error →
      error = .longPattern ∧ patternBound < pattern.text.utf8ByteSize ∨
        ∃ cells ∈ states, cells.fnTag.isMatched pattern = true ∧ cells.opid.kind ≠ .integer ∧
          error = .columnType cells.opid.kind 0 "opid"

/-- What comes of a question follows from the rows that it selects, whatever their cells hold. -/
theorem settles_questions (states : List StateCells) (attributes : List AttributeCells)
    (maps : List MapCells) :
    ({ states, attributes, maps } : Database).Settles states attributes maps where
  statesOf opid := StateCells.settles_readAll states _
  statesTagged pattern hshort := by
    have hcheck : ({ states, attributes, maps } : Database).checkPattern pattern = .ok () := by
      rw [checkPattern_eq rfl, if_neg]
      exact fun ⟨hlong, hne⟩ ↦ hshort.elim (Nat.not_le_of_lt hlong) hne
    simp only [toStore, hcheck]
    exact StateCells.settles_readAll states _
  statesTagged_long pattern hlong hne := by
    have hcheck : ({ states, attributes, maps } : Database).checkPattern pattern =
        .error .longPattern := by
      rw [checkPattern_eq rfl, if_pos ⟨hlong, hne⟩]
    simp only [toStore, hcheck]
    rfl
  attributesOf opid := Layout.settles_readAll AttributeCells.endsIn_read fun _ ↦ rfl
  mapsInto opid := Layout.settles_readAll MapCells.endsIn_read fun _ ↦ rfl
  mapsFrom opid := Layout.settles_readAll MapCells.endsIn_read fun _ ↦ rfl
  mapsClearedBy opid := Layout.settles_readAll MapCells.endsIn_read fun _ ↦ rfl
  opidsTagged_reword word pattern window := opidsTagged_reword _ word pattern window
  opidsTagged_error _ _ _ h := exists_of_opidsTagged_eq_error rfl h

end Database

namespace Mixed

open Sample

/-- The rows of operation 7: a word that is no state, two cells of a wrong kind, one such cell. -/
def unreadable : List StateCells :=
  [{ StateCells.ofRow ⟨header 1 10, 7, .init⟩ with state := .text "pending" },
    { StateCells.ofRow ⟨header 2 20, 7, .init⟩ with time := .text "late", state := .integer 0 },
    { StateCells.ofRow ⟨header 3 30, 7, .finish⟩ with pid := .null }]

/-- The rows of operation 8: two words that are no states. -/
def unknown : List StateCells :=
  [{ StateCells.ofRow ⟨header 4 40, 8, .init⟩ with state := .text "pending" },
    { StateCells.ofRow ⟨header 5 50, 8, .finish⟩ with state := .text "done" }]

/-- The rows are written from the last to the first. -/
def database : Database where
  states := some (unreadable ++ unknown).reverse
  attributes := some
    [{ AttributeCells.ofRow ⟨header 1 10, 7, "size", ""⟩ with value := .integer 4096 }]
  maps := some []

theorem selected_eq :
    StateCells.layout.selected (unreadable ++ unknown).reverse (·.opid.isNumber 7) = unreadable ∧
      StateCells.layout.selected (unreadable ++ unknown).reverse (·.opid.isNumber 8) =
        unknown := by
  constructor <;>
    simp [Layout.selected, Database.select, unreadable, unknown, List.mergeSort,
      StateCells.layout, List.MergeSort.Internal.splitInTwo, StateCells.ofRow,
      HeaderCells.ofHeader, header, Cell.le_integer, Cell.isNumber]

end Mixed

/-- The first cell of a wrong kind comes before the first word that is no state. -/
theorem Database.settles_of_mixed :
    Mixed.database.toStore.statesOf 7 = .error (.columnType .text 2 "time") ∧
      Mixed.database.toStore.statesOf 8 = .error (.unknownState 4 "pending") ∧
      ∃ rows, Mixed.database.toStore.attributesOf 7 = .ok rows ∧
        rows.map AttributeCells.ofRow = [.ofRow ⟨Sample.header 1 10, 7, "size", "4096"⟩] := by
  have h : Mixed.database.Settles _ _ _ := settles_questions _ _ _
  refine ⟨(h.statesOf 7).misfit _ ?_, (h.statesOf 8).unknown ?_ _ ?_, ?_⟩
  · rw [Mixed.selected_eq.1]
    rfl
  · rw [Mixed.selected_eq.2]
    rfl
  · rw [Mixed.selected_eq.2]
    rfl
  · obtain ⟨rows, hrows, -, hwritten⟩ := (h.attributesOf 7).rows (by cbv) (by cbv)
    exact ⟨rows, hrows, hwritten.trans (by cbv)⟩

end OpTrace

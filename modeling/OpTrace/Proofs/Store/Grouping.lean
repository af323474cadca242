import Mathlib.Data.List.Nodup
import Mathlib.Data.List.Pairwise
import Mathlib.Data.List.SplitBy
import OpTrace.Proofs.StableOrder
import OpTrace.Proofs.Store.Writing

/-!
# Groups and first appearances

A trace in memory lists the operations of matching rows by going through the rows. A database sorts
the rows by operation, cuts them into groups, takes the least number of each group and sorts the
groups by these numbers. Both lists put an operation in front of another one if some row of it comes
before all rows of the other one. No list goes through the same operations in this order in another
way, so the two lists are equal.
-/

namespace OpTrace

/-- Operation `a` has a row before all rows of operation `b`. -/
def Precedes (rows : List StateRow) (a b : OpId) : Prop :=
  ∃ row ∈ rows, row.opid = a ∧ ∀ other ∈ rows, other.opid = b → row.id < other.id

namespace Precedes

variable {rows : List StateRow} {a b : OpId}

theorem asymm (h : Precedes rows a b) : ¬Precedes rows b a := by
  rintro ⟨other, hother, rfl, hbefore'⟩
  obtain ⟨row, hrow, rfl, hbefore⟩ := h
  have := hbefore other hother rfl
  have := hbefore' row hrow rfl
  omega

/-- A row of another operation does not come into it. -/
theorem cons {row : StateRow} (hb : b ≠ row.opid) (h : Precedes rows a b) :
    Precedes (row :: rows) a b := by
  obtain ⟨first, hfirst, hopid, hbefore⟩ := h
  refine ⟨first, List.mem_cons_of_mem _ hfirst, hopid, fun other hother hothers ↦ ?_⟩
  rcases List.mem_cons.mp hother with rfl | hother
  · exact absurd hothers.symm hb
  · exact hbefore other hother hothers

/-- The order of the rows makes no difference. -/
theorem of_perm {rows' : List StateRow} (h : Precedes rows a b) (hperm : rows'.Perm rows) :
    Precedes rows' a b := by
  obtain ⟨row, hrow, hopid, hbefore⟩ := h
  exact ⟨row, hperm.mem_iff.mpr hrow, hopid,
    fun other hother ↦ hbefore other (hperm.mem_iff.mp hother)⟩

/-- There is one way to list operations in this order. -/
theorem eq_of_pairwise {opids opids' : List OpId} (h : opids.Pairwise (Precedes rows))
    (h' : opids'.Pairwise (Precedes rows)) (hmem : ∀ opid, opid ∈ opids ↔ opid ∈ opids') :
    opids = opids' := by
  have hnodup {opids : List OpId} (h : opids.Pairwise (Precedes rows)) : opids.Nodup :=
    h.imp fun hab heq ↦ (heq ▸ hab).asymm (heq ▸ hab)
  have hperm := (List.perm_ext_iff_of_nodup (hnodup h) (hnodup h')).mpr hmem
  exact hperm.eq_of_pairwise (fun _ _ _ _ hab hba ↦ absurd hba hab.asymm) h h'

end Precedes

/-- Going through rows in order of their numbers lists operations by first appearance. -/
theorem pairwise_firstAppearances {rows : List StateRow}
    (hrows : rows.Pairwise fun a b ↦ a.id < b.id) (seen : List OpId) :
    (Trace.firstAppearances seen (rows.map (·.opid))).Pairwise (Precedes rows) := by
  induction rows generalizing seen with
  | nil => exact .nil
  | cons row rows ih =>
    obtain ⟨hbefore, hrows⟩ := List.pairwise_cons.mp hrows
    have hlater {seen : List OpId} (hseen : row.opid ∈ seen) :
        (Trace.firstAppearances seen (rows.map (·.opid))).Pairwise (Precedes (row :: rows)) := by
      refine (ih hrows seen).imp_of_mem fun _ hb h ↦ h.cons ?_
      rintro rfl
      exact (Trace.mem_firstAppearances.mp hb).2 hseen
    simp only [List.map_cons, Trace.firstAppearances]
    split
    · next hseen => exact hlater hseen
    · refine List.pairwise_cons.mpr ⟨fun b hb ↦ ?_, hlater List.mem_cons_self⟩
      refine ⟨row, List.mem_cons_self, rfl, fun other hother hothers ↦ ?_⟩
      have hne := (Trace.mem_firstAppearances.mp hb).2
      rcases List.mem_cons.mp hother with rfl | hother
      · exact absurd (hothers ▸ List.mem_cons_self) hne
      · exact hbefore other hother

section Runs

variable {α : Type} {key : α → Int} {same : α → α → Bool} {l : List α}

theorem mem_of_mem_splitBy {run : List α} (hrun : run ∈ l.splitBy same) {a : α} (ha : a ∈ run) :
    a ∈ l := by
  rw [← List.flatten_splitBy same l]
  exact List.mem_flatten_of_mem hrun ha

theorem key_eq_of_mem_splitBy (hsame : ∀ a ∈ l, ∀ b ∈ l, same a b = true ↔ key a = key b)
    {run : List α} (hrun : run ∈ l.splitBy same) {a b : α} (ha : a ∈ run) (hb : b ∈ run) :
    key a = key b := by
  have hchain : (run.map key).IsChain (· = ·) := by
    rw [List.isChain_map]
    refine (List.isChain_of_mem_splitBy hrun).imp_of_mem_imp fun a b ha hb h ↦ ?_
    exact (hsame a (mem_of_mem_splitBy hrun ha) b (mem_of_mem_splitBy hrun hb)).mp h
  have hequal := (List.isChain_iff_pairwise.mp hchain).forall_of_forall fun _ _ ↦ rfl
  exact hequal (List.mem_map_of_mem ha) (List.mem_map_of_mem hb)

/-- Neighbours with different keys in a sorted list of runs keep all runs apart. -/
theorem pairwise_ne_of_isChain {runs : List (List α)}
    (hequal : ∀ run ∈ runs, ∀ a ∈ run, ∀ b ∈ run, key a = key b)
    (hsorted : runs.Pairwise fun run next ↦ ∀ a ∈ run, ∀ b ∈ next, key a ≤ key b)
    (hchain : runs.IsChain fun run next ↦ ∃ a ∈ run, ∃ b ∈ next, key a ≠ key b) :
    runs.Pairwise fun run next ↦ ∀ a ∈ run, ∀ b ∈ next, key a ≠ key b := by
  induction runs with
  | nil => exact .nil
  | cons run runs ih =>
    obtain ⟨hfirst, hsorted⟩ := List.pairwise_cons.mp hsorted
    have hrest := ih (fun m hm ↦ hequal m (List.mem_cons_of_mem _ hm)) hsorted hchain.tail
    refine List.pairwise_cons.mpr ⟨fun next hnext a ha b hb ↦ ?_, hrest⟩
    cases runs with
    | nil => simp at hnext
    | cons second runs =>
      -- The key grows from the first run to the second one and does not fall from there on.
      obtain ⟨a', ha', b', hb', hne⟩ := (List.isChain_cons_cons.mp hchain).1
      have hgrows : key a' ≤ key b' := hfirst second List.mem_cons_self a' ha' b' hb'
      have hrun : key a = key a' := hequal run List.mem_cons_self a ha a' ha'
      have hstays : key b' ≤ key b := by
        rcases List.mem_cons.mp hnext with rfl | hnext
        · exact Int.le_of_eq (hequal next (by simp) b' hb' b hb)
        · exact (List.pairwise_cons.mp hsorted).1 next hnext b' hb' b hb
      omega

/-- The runs of equal keys in a sorted list have different keys. -/
theorem pairwise_ne_splitBy (hsame : ∀ a ∈ l, ∀ b ∈ l, same a b = true ↔ key a = key b)
    (hsorted : l.Pairwise fun a b ↦ key a ≤ key b) :
    (l.splitBy same).Pairwise fun run next ↦ ∀ a ∈ run, ∀ b ∈ next, key a ≠ key b := by
  refine pairwise_ne_of_isChain (fun run hrun a ha b hb ↦ key_eq_of_mem_splitBy hsame hrun ha hb)
    ?_ ?_
  · rw [← List.flatten_splitBy same l] at hsorted
    exact (List.pairwise_flatten.mp hsorted).2
  · refine (List.isChain_getLast_head_splitBy same l).imp_of_mem_imp fun run next hrun hnext h ↦ ?_
    obtain ⟨ha, hb, h⟩ := h
    refine ⟨_, run.getLast_mem ha, _, next.head_mem hb, fun hkey ↦ ?_⟩
    have hsame := hsame _ (mem_of_mem_splitBy hrun (run.getLast_mem ha)) _
      (mem_of_mem_splitBy hnext (next.head_mem hb))
    rw [hsame.mpr hkey] at h
    cases h

end Runs

namespace Cell

/-- The whole number in a cell, zero if there is none. -/
def whole : Cell → Int
  | integer n => n
  | _ => 0

def IsWhole (cell : Cell) : Prop := cell = .integer cell.whole

variable {a b : Cell}

theorem IsWhole.compare (ha : a.IsWhole) (hb : b.IsWhole) :
    a.compare b = Ord.compare a.whole b.whole := by
  rw [ha, hb, Cell.compare_integer]
  rfl

theorem IsWhole.le (ha : a.IsWhole) (hb : b.IsWhole) : a.le b = decide (a.whole ≤ b.whole) := by
  rw [ha, hb, Cell.le_integer]
  rfl

theorem IsWhole.ne_null (ha : a.IsWhole) : a ≠ .null := by
  rw [ha]
  nofun

end Cell

/-- The columns by which a state row is sorted and grouped hold whole numbers. -/
structure StateCells.Numbered (cells : StateCells) : Prop where
  id : cells.id.IsWhole
  opid : cells.opid.IsWhole

theorem StateCells.numbered_ofRow (row : StateRow) : (ofRow row).Numbered := ⟨rfl, rfl⟩

/-! ## Groups of state rows -/

namespace Database

namespace Group

/-- Of two rows the one with the lesser number, the first if they are equal. -/
theorem exists_lesser {first second : StateCells} (hfirst : first.Numbered)
    (hsecond : second.Numbered) :
    ∃ best, (if second.id.compare first.id = .lt then second else first) = best ∧
      (best = first ∨ best = second) ∧
      best.id.whole ≤ first.id.whole ∧ best.id.whole ≤ second.id.whole := by
  rw [hsecond.id.compare hfirst.id]
  split
  · next h =>
    have := Int.compare_eq_lt.mp h
    exact ⟨second, rfl, .inr rfl, by omega, Int.le_refl _⟩
  · next h =>
    have := Int.compare_eq_lt.not.mp h
    exact ⟨first, rfl, .inl rfl, Int.le_refl _, by omega⟩

/-- Going through rows finds one with the least number. -/
theorem exists_least {first : StateCells} {rest : List StateCells}
    (hrows : ∀ cells ∈ first :: rest, cells.Numbered) :
    ∃ least ∈ first :: rest,
      rest.foldl (fun best row ↦ if row.id.compare best.id = .lt then row else best) first =
        least ∧
      ∀ cells ∈ first :: rest, least.id.whole ≤ cells.id.whole := by
  induction rest generalizing first with
  | nil => exact ⟨first, by simp, rfl, by simp⟩
  | cons second rest ih =>
    obtain ⟨hfirst, hsecond, hrest⟩ :
        first.Numbered ∧ second.Numbered ∧ ∀ cells ∈ rest, cells.Numbered := by
      simpa [List.forall_mem_cons] using hrows
    obtain ⟨best, hbest, hor, hle, hle'⟩ := exists_lesser hfirst hsecond
    have hnumbered : best.Numbered := by rcases hor with rfl | rfl <;> assumption
    rw [List.foldl_cons, hbest]
    obtain ⟨least, hmem, heq, hleast⟩ := ih (List.forall_mem_cons.mpr ⟨hnumbered, hrest⟩)
    obtain ⟨hleast, hothers⟩ := List.forall_mem_cons.mp hleast
    refine ⟨least, by grind, heq, ?_⟩
    exact List.forall_mem_cons.mpr ⟨by omega, List.forall_mem_cons.mpr ⟨by omega, hothers⟩⟩

variable {group : Group}

/-- The leader of a group is a row with the least number. -/
theorem exists_leader (hne : group.rows ≠ []) (hrows : ∀ cells ∈ group.rows, cells.Numbered) :
    ∃ leader ∈ group.rows, group.leader = some leader ∧
      ∀ cells ∈ group.rows, leader.id.whole ≤ cells.id.whole := by
  have hall : group.rows.filter (·.id ≠ .null) = group.rows :=
    List.filter_eq_self.mpr fun cells hcells ↦ decide_eq_true (hrows cells hcells).id.ne_null
  obtain ⟨first, rest, hcons⟩ := List.exists_cons_of_ne_nil hne
  rw [hcons] at hrows
  obtain ⟨least, hmem, heq, hleast⟩ := exists_least hrows
  rw [leader, hall, hcons]
  exact ⟨least, hmem, congrArg some heq, hleast⟩

end Group

/-- The groups are about different operations. -/
def Group.Apart (group next : Group) : Prop :=
  ∀ a ∈ group.rows, ∀ b ∈ next.rows, a.opid.whole ≠ b.opid.whole

instance : Std.Symm Group.Apart := ⟨fun _ _ h a ha b hb ↦ (h b hb a ha).symm⟩

/-- Groups that part a table by operation. -/
structure Partition (table : List StateCells) (groups : List Group) : Prop where
  exists_of_mem : ∀ cells ∈ table, ∃ group ∈ groups, cells ∈ group.rows
  mem_of_mem : ∀ group ∈ groups, ∀ cells ∈ group.rows, cells ∈ table
  ne_nil : ∀ group ∈ groups, group.rows ≠ []
  opid_eq : ∀ group ∈ groups, ∀ a ∈ group.rows, ∀ b ∈ group.rows, a.opid.whole = b.opid.whole
  apart : groups.Pairwise Group.Apart

namespace Partition

variable {table table' : List StateCells} {parts parts' : List Group}

/-- The order of the rows and of the groups makes no difference. -/
theorem of_perm (h : Partition table parts) (htable : table'.Perm table)
    (hparts : parts'.Perm parts) : Partition table' parts' where
  exists_of_mem cells hcells := by
    obtain ⟨group, hgroup, hmem⟩ := h.exists_of_mem cells (htable.mem_iff.mp hcells)
    exact ⟨group, hparts.mem_iff.mpr hgroup, hmem⟩
  mem_of_mem group hgroup cells hcells :=
    htable.mem_iff.mpr (h.mem_of_mem group (hparts.mem_iff.mp hgroup) cells hcells)
  ne_nil group hgroup := h.ne_nil group (hparts.mem_iff.mp hgroup)
  opid_eq group hgroup := h.opid_eq group (hparts.mem_iff.mp hgroup)
  apart := h.apart.perm hparts.symm fun h ↦ symm h

/-- A group has all rows of its operation. -/
theorem mem_of_opid_eq (h : Partition table parts) {group : Group} (hgroup : group ∈ parts)
    {a b : StateCells} (ha : a ∈ group.rows) (hb : b ∈ table)
    (heq : a.opid.whole = b.opid.whole) : b ∈ group.rows := by
  obtain ⟨next, hnext, hmem⟩ := h.exists_of_mem b hb
  have hsame : group = next := by
    by_contra hne
    exact h.apart.forall hgroup hnext hne a ha b hmem heq
  exact hsame ▸ hmem

end Partition

section Groups

variable {table : List StateCells} (htable : ∀ cells ∈ table, cells.Numbered)
include htable

/-- Grouping parts a table by operation. -/
theorem partition_groups : Partition table (groups table) := by
  let sorted := table.mergeSort fun a b ↦ a.opid.le b.opid
  let same (a b : StateCells) : Bool := a.opid.compare b.opid = .eq
  have hperm : sorted.Perm table := List.mergeSort_perm table _
  have hkeys : sorted.Pairwise fun a b ↦ a.opid.whole ≤ b.opid.whole :=
    pairwise_mergeSort_key fun a ha b hb ↦ (htable a ha).opid.le (htable b hb).opid
  have hsame : ∀ a ∈ sorted, ∀ b ∈ sorted, same a b = true ↔ a.opid.whole = b.opid.whole := by
    intro a ha b hb
    have hcompare := (htable a (hperm.mem_iff.mp ha)).opid.compare
      (htable b (hperm.mem_iff.mp hb)).opid
    rw [decide_eq_true_iff, hcompare, Int.compare_eq_eq]
  have hruns : Partition sorted ((sorted.splitBy same).map Group.mk) := by
    constructor
    case apart => exact List.pairwise_map.mpr (pairwise_ne_splitBy hsame hkeys)
    case exists_of_mem =>
      intro cells hcells
      rw [← List.flatten_splitBy same sorted] at hcells
      obtain ⟨run, hrun, hmem⟩ := List.mem_flatten.mp hcells
      exact ⟨⟨run⟩, List.mem_map_of_mem hrun, hmem⟩
    all_goals
      intro group hgroup
      obtain ⟨run, hrun, rfl⟩ := List.mem_map.mp hgroup
    case mem_of_mem => exact fun cells hcells ↦ mem_of_mem_splitBy hrun hcells
    case ne_nil => exact List.ne_nil_of_mem_splitBy hrun
    case opid_eq => exact fun a ha b hb ↦ key_eq_of_mem_splitBy hsame hrun ha hb
  exact hruns.of_perm hperm.symm (List.mergeSort_perm _ _)

/-- Every group has a leader. It is one of the rows with the least number of its operation. -/
theorem exists_leader_of_mem_groups {group : Group} (hgroup : group ∈ groups table) :
    ∃ leader, group.leader = some leader ∧ leader ∈ table ∧ leader ∈ group.rows ∧
      ∀ cells ∈ table, leader.opid.whole = cells.opid.whole →
        leader.id.whole ≤ cells.id.whole := by
  have hparts := partition_groups htable
  obtain ⟨leader, hmem, hleader, hleast⟩ := Group.exists_leader (hparts.ne_nil group hgroup)
    fun cells hcells ↦ htable cells (hparts.mem_of_mem group hgroup cells hcells)
  exact ⟨leader, hleader, hparts.mem_of_mem group hgroup leader hmem, hmem,
    fun cells hcells heq ↦ hleast cells (hparts.mem_of_opid_eq hgroup hmem hcells heq)⟩

theorem leader_spec {group : Group} (hgroup : group ∈ groups table) {leader : StateCells}
    (hleader : group.leader = some leader) :
    leader ∈ table ∧ leader ∈ group.rows ∧
      ∀ cells ∈ table, leader.opid.whole = cells.opid.whole →
        leader.id.whole ≤ cells.id.whole := by
  obtain ⟨leader', hleader', h⟩ := exists_leader_of_mem_groups htable hgroup
  obtain rfl := Option.some.inj (hleader.symm.trans hleader')
  exact h

/-- Groups are sorted by their least numbers. -/
theorem pairwise_number_groups :
    (groups table).Pairwise fun group next ↦ group.number.whole ≤ next.number.whole := by
  have hwhole (group : Group) (hgroup : group ∈ groups table) : group.number.IsWhole := by
    obtain ⟨leader, hleader, hmem, -⟩ := exists_leader_of_mem_groups htable hgroup
    rw [Group.number, hleader]
    exact (htable leader hmem).id
  exact pairwise_mergeSort_key fun group hgroup next hnext ↦
    (hwhole group (List.mem_mergeSort.mpr hgroup)).le (hwhole next (List.mem_mergeSort.mpr hnext))

/-- The leaders are about the operations of the table. -/
theorem mem_map_leader_groups {opid : OpId} :
    opid ∈ ((groups table).filterMap Group.leader).map (·.opid.whole) ↔
      ∃ cells ∈ table, cells.opid.whole = opid := by
  simp only [List.mem_map, List.mem_filterMap]
  constructor
  · rintro ⟨leader, ⟨group, hgroup, hleader⟩, rfl⟩
    exact ⟨leader, (leader_spec htable hgroup hleader).1, rfl⟩
  · rintro ⟨cells, hcells, rfl⟩
    have hparts := partition_groups htable
    obtain ⟨group, hgroup, hmem⟩ := hparts.exists_of_mem cells hcells
    obtain ⟨leader, hleader, -, hmem', -⟩ := exists_leader_of_mem_groups htable hgroup
    exact ⟨leader, ⟨group, hgroup, hleader⟩, hparts.opid_eq group hgroup leader hmem' cells hmem⟩

end Groups

section Written

variable {rows : List StateRow}

theorem numbered_of_mem_map : ∀ cells ∈ rows.map StateCells.ofRow, cells.Numbered := by
  intro cells hcells
  obtain ⟨row, -, rfl⟩ := List.mem_map.mp hcells
  exact StateCells.numbered_ofRow row

/-- The leaders of written rows come in the order of first appearance. -/
theorem pairwise_leader_groups (hnodup : (rows.map rowId).Nodup) :
    (((groups (rows.map .ofRow)).filterMap Group.leader).map (·.opid.whole)).Pairwise
      (Precedes rows) := by
  have htable : ∀ cells ∈ rows.map StateCells.ofRow, cells.Numbered := numbered_of_mem_map
  rw [List.pairwise_map, List.pairwise_filterMap]
  refine ((partition_groups htable).apart.and (pairwise_number_groups htable)).imp_of_mem ?_
  intro group next hgroup hnext h leader hleader other hother
  obtain ⟨hmem, hrows, -⟩ := leader_spec htable hgroup hleader
  obtain ⟨-, hrows', hleast⟩ := leader_spec htable hnext hother
  obtain ⟨row, hrow, rfl⟩ := List.mem_map.mp hmem
  refine ⟨row, hrow, rfl, fun later hlater hopid ↦ ?_⟩
  -- The leader of the first group is not above that of the second, which is not above `later`.
  have hnumber : row.id ≤ other.id.whole := by
    have hnumber := h.2
    rw [Group.number, Group.number, hleader, hother] at hnumber
    exact hnumber
  have hothers : other.id.whole ≤ later.id :=
    hleast (.ofRow later) (List.mem_map_of_mem hlater) hopid.symm
  have hne : row.id ≠ later.id := by
    intro heq
    obtain rfl := List.inj_on_of_nodup_map hnodup hrow hlater heq
    exact h.1 _ hrows _ hrows' hopid
  omega

/-- Grouping written rows and going through the leaders lists the operations by first appearance.
-/
theorem readAll_leader_groups (hnodup : (rows.map rowId).Nodup) :
    readAll (fun row ↦ row.opid.readInteger 0 "opid")
        ((groups (rows.map .ofRow)).filterMap Group.leader) =
      .ok (Trace.firstAppearances [] ((Log.sortRows rows).map (·.opid))) := by
  have hread : ∀ leader ∈ (groups (rows.map StateCells.ofRow)).filterMap Group.leader,
      leader.opid.readInteger 0 "opid" = .ok leader.opid.whole := by
    intro leader hleader
    obtain ⟨group, hgroup, hleader⟩ := List.mem_filterMap.mp hleader
    obtain ⟨hmem, -⟩ := leader_spec numbered_of_mem_map hgroup hleader
    obtain ⟨row, -, rfl⟩ := List.mem_map.mp hmem
    rfl
  rw [readAll_of_forall hread]
  congr 1
  refine Precedes.eq_of_pairwise (pairwise_leader_groups hnodup) ?_ fun opid ↦ ?_
  · refine (pairwise_firstAppearances (Log.pairwise_lt_sortRows hnodup) []).imp fun h ↦ ?_
    exact h.of_perm (Log.perm_sortRows rows).symm
  · rw [mem_map_leader_groups numbered_of_mem_map, Trace.mem_firstAppearances]
    simp [Log.sortRows, StateCells.ofRow, Cell.whole]

/-- Grouping gives the operations of the selected rows by first appearance. -/
theorem answerOpids_ofRows {attributes : List AttributeRow} {maps : List MapRow}
    (keep : StateCells → Bool) (hnodup : (rows.map rowId).Nodup) :
    (ofRows rows attributes maps).answerOpids keep =
      .ok (Trace.firstAppearances []
        (((Log.sortRows rows).filter fun row ↦ keep (.ofRow row)).map (·.opid))) := by
  have hnodup : ((rows.filter fun row ↦ keep (.ofRow row)).map rowId).Nodup :=
    hnodup.sublist (List.filter_sublist.map rowId)
  refine bind_eq_ok.mpr ⟨_, rfl, ?_⟩
  rw [List.filter_map, Log.filter_sortRows]
  exact readAll_leader_groups hnodup

end Written

end Database

end OpTrace

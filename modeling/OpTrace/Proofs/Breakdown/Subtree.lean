import OpTrace.Proofs.Breakdown.Decision
import OpTrace.Proofs.Store.Reading

/-!
# Duplicates below duplicates

A duplicate takes with it all that hangs below it under the same tag. A descent looks for the
children of an operation only after it discovered the operation, so a child is attributed after
its destination. By then a destination that is a duplicate is booked for its tag, and this makes
the child a duplicate, whatever else was attributed in between.

The argument needs of a store that the rows which it lists into an operation name this operation.
-/

namespace OpTrace

/-- The rows that the store lists into an operation name it as their destination. -/
def Store.NamesDestinations (store : Store) : Prop :=
  ∀ opid rows, store.mapsInto opid = .ok rows → ∀ row ∈ rows, row.dst = opid

theorem Trace.namesDestinations (trace : Trace) : trace.toStore.NamesDestinations := by
  intro opid rows hrows row hrow
  cases hrows
  simpa using (List.mem_filter.mp hrow).2

theorem Database.namesDestinations (db : Database) : db.toStore.NamesDestinations := by
  intro opid rows hrows row hrow
  have hcolumn (cells : MapCells) (row : MapRow) (hread : cells.read = .ok row) :=
    (MapCells.columns_of_read hread).1
  exact ((mem_of_answerMaps hcolumn hrows row).mp hrow).2

/-- Visits of a walk that goes on from the operations in `known`. Each finds an operation that is
not known, and no visit goes through a row into an operation that is visited at the same time or
later. -/
structure Onward (known : List OpId) (visits : List Visit) : Prop where
  fresh : ∀ visit ∈ visits, visit.opid ∉ known
  other : ∀ visit ∈ visits, visit.row.dst ≠ visit.opid
  ordered : visits.Pairwise fun first second ↦ first.row.dst ≠ second.opid

namespace Onward

variable {known : List OpId}

theorem nil : Onward known [] := ⟨by simp, by simp, .nil⟩

/-- Visits through rows into known operations, and then what is found from there. -/
theorem append {visits rest : List Visit} (hfresh : ∀ visit ∈ visits, visit.opid ∉ known)
    (hdst : ∀ visit ∈ visits, visit.row.dst ∈ known)
    (hrest : Onward (known ++ visits.map Visit.opid) rest) : Onward known (visits ++ rest) := by
  have hlater : ∀ visit ∈ rest, visit.opid ∉ known := fun visit hvisit hknown ↦
    hrest.fresh visit hvisit (List.mem_append_left _ hknown)
  have hne {first second : Visit} (hfirst : first ∈ visits) (hsecond : second.opid ∉ known) :
      first.row.dst ≠ second.opid := fun heq ↦ hsecond (heq ▸ hdst first hfirst)
  constructor
  case fresh => exact List.forall_mem_append.mpr ⟨hfresh, hlater⟩
  case other =>
    refine List.forall_mem_append.mpr ⟨fun visit hvisit ↦ ?_, hrest.other⟩
    exact hne hvisit (hfresh visit hvisit)
  case ordered =>
    apply List.pairwise_append.mpr
    refine ⟨List.pairwise_of_forall_mem_list fun first hfirst second hsecond ↦ ?_, hrest.ordered,
      fun first hfirst second hsecond ↦ hne hfirst (hlater second hsecond)⟩
    exact hne hfirst (hfresh second hsecond)

end Onward

section Descent

variable {store : Store} (hnames : store.NamesDestinations)
include hnames

theorem onward_of_descendFrom {known queue : List OpId} {visits : List Visit}
    (hqueue : ∀ opid ∈ queue, opid ∈ known)
    (h : descendFrom store known queue = .ok visits) : Onward known visits := by
  fun_induction descendFrom store known queue generalizing visits with
  | case1 known =>
    cases h
    exact .nil
  | case2 known opid queue error herror => cases h
  | case3 known opid queue rows hrows fresh =>
    rename_i opids ih
    obtain ⟨found, hfound, h⟩ := bind_eq_ok.mp h
    obtain ⟨rest, hrest, h⟩ := bind_eq_ok.mp h
    obtain rfl := pure_eq_ok.mp h
    have hopids : opids = found.map Visit.opid := (of_visitAll hfound).1.symm
    have hrow : ∀ visit ∈ found, visit.row ∈ rows ∧ visit.opid ∉ known := by
      intro visit hvisit
      have hfresh : visit.row ∈ fresh := by
        rw [← map_row_visitAll hfound]
        exact List.mem_map_of_mem hvisit
      exact mem_of_mem_newSources hfresh
    refine .append (fun visit hvisit ↦ (hrow visit hvisit).2) (fun visit hvisit ↦ ?_) ?_
    · rw [hnames opid rows hrows visit.row (hrow visit hvisit).1]
      exact hqueue opid List.mem_cons_self
    · rw [← hopids]
      refine ih (fun later hlater ↦ ?_) hrest
      rcases List.mem_append.mp hlater with hwaits | hnew
      · exact List.mem_append_left _ (hqueue later (List.mem_cons_of_mem _ hwaits))
      · exact List.mem_append_right _ hnew

theorem onward_of_descend {root : OpId} {visits : List Visit}
    (h : descend store root = .ok visits) : Onward [root] visits :=
  onward_of_descendFrom hnames (fun _ hopid ↦ hopid) h

end Descent

/-- No attribution records a row into an operation that is attributed at the same time or later. -/
structure DestinationsFirst (attributions : List Attribution) : Prop where
  other : ∀ attribution ∈ attributions, attribution.dst ≠ attribution.opid
  ordered : attributions.Pairwise fun first second ↦ first.dst ≠ second.opid

namespace DestinationsFirst

theorem of_onward {known : List OpId} {visits : List Visit} (h : Onward known visits)
    (table : CategoryTable) (total : Span) :
    DestinationsFirst (Breakdown.ofVisits table total visits).attributions := by
  constructor
  case other =>
    intro attribution hattribution
    obtain ⟨visit, hvisit, span, outcome, -, rfl⟩ := Tally.records_foldl_see hattribution
    exact h.other visit hvisit
  case ordered =>
    let ends (attribution : Attribution) : OpId × OpId := (attribution.dst, attribution.opid)
    have hends : (Breakdown.ofVisits table total visits).attributions.map ends =
        (visits.filter (·.resolution.isComplete)).map fun visit ↦ (visit.row.dst, visit.opid) :=
      Tally.map_attributions_foldl_see (fun _ _ _ ↦ rfl) visits (Tally.start table)
    have hordered : ((Breakdown.ofVisits table total visits).attributions.map ends).Pairwise
        fun first second ↦ first.1 ≠ second.2 := by
      rw [hends]
      exact List.pairwise_map.mpr (h.ordered.sublist List.filter_sublist)
    exact List.pairwise_map.mp hordered

/-- The attribution of a destination is among the earlier ones. -/
theorem mem_earlier {earlier later : List Attribution} {parent child : Attribution}
    (h : DestinationsFirst (earlier ++ child :: later))
    (hparent : parent ∈ earlier ++ child :: later) (hdst : child.dst = parent.opid) :
    parent ∈ earlier := by
  rcases List.mem_append.mp hparent with hearlier | hrest
  · exact hearlier
  · rcases List.mem_cons.mp hrest with rfl | hlater
    · exact absurd hdst (h.other parent hparent)
    · have hordered := (List.pairwise_append.mp h.ordered).2.1
      exact absurd hdst ((List.pairwise_cons.mp hordered).1 parent hlater)

end DestinationsFirst

section Subtree

variable {table : CategoryTable} {attributions : List Attribution} {parent child : Attribution}

theorem AllExplained.exists_explained (h : AllExplained table attributions)
    (hmem : child ∈ attributions) : ∃ earlier later, attributions = earlier ++ child :: later ∧
      Explained table earlier child := by
  obtain ⟨earlier, later, rfl⟩ := List.append_of_mem hmem
  exact ⟨earlier, later, rfl, h earlier child ⟨later, by simp⟩⟩

/-- A child of a duplicate is a duplicate if it has the same tag. -/
theorem isDuplicate_of_dst (hexplained : AllExplained table attributions)
    (hfirst : DestinationsFirst attributions) (hparent : parent ∈ attributions)
    (hchild : child ∈ attributions) (hdst : child.dst = parent.opid)
    (htag : child.smTag = parent.smTag) (hduplicate : parent.outcome.isDuplicate = true) :
    child.outcome.isDuplicate = true := by
  obtain ⟨before, behind, -, hparentExplained⟩ := hexplained.exists_explained hparent
  obtain ⟨earlier, later, rfl, hchildExplained⟩ := hexplained.exists_explained hchild
  obtain ⟨tag, index, hplaced⟩ :=
    hparentExplained.exists_placed (Outcome.ne_of_isDuplicate hduplicate)
  have hbooked : Booked earlier tag child.dst :=
    ⟨parent, hfirst.mem_earlier hparent hdst, hplaced.1, .inr ⟨hduplicate, hdst.symm⟩⟩
  exact hchildExplained.isDuplicate_of_booked_dst ⟨htag.trans hplaced.1, hplaced.2⟩ hbooked

end Subtree

/-- Skipping a duplicate skips its subtree. In a chain of attributions of one tag, each of which
has the operation before it as its destination, all are duplicates if the first one is. -/
theorem Breakdown.isDuplicate_of_chain {store : Store} (hnames : store.NamesDestinations)
    {table : CategoryTable} {root : OpId} {breakdown : Breakdown} {findings : Findings}
    (h : ofOperation store table root = .ok (some breakdown, findings))
    {first : Attribution} {chain : List Attribution}
    (hmem : ∀ attribution ∈ first :: chain, attribution ∈ breakdown.attributions)
    (hchain : (first :: chain).IsChain fun parent child ↦ child.dst = parent.opid)
    (htag : ∀ attribution ∈ chain, attribution.smTag = first.smTag)
    (hduplicate : first.outcome.isDuplicate = true) :
    ∀ attribution ∈ first :: chain, attribution.outcome.isDuplicate = true := by
  obtain ⟨total, visits, -, hvisits, rfl, -⟩ := descend_of_ofOperation h
  have hexplained : AllExplained table (ofVisits table total visits).attributions :=
    Tally.allExplained_foldl_see table visits
  have hfirst := DestinationsFirst.of_onward (onward_of_descend hnames hvisits) table total
  induction chain generalizing first with
  | nil => simpa using hduplicate
  | cons second chain ih =>
    obtain ⟨hdst, hchain⟩ := List.isChain_cons_cons.mp hchain
    obtain ⟨hparent, hmem⟩ := List.forall_mem_cons.mp hmem
    obtain ⟨hsame, htag⟩ := List.forall_mem_cons.mp htag
    have hnext : second.outcome.isDuplicate = true :=
      isDuplicate_of_dst hexplained hfirst hparent (hmem second List.mem_cons_self) hdst hsame
        hduplicate
    refine List.forall_mem_cons.mpr ⟨hduplicate, ih hchain (fun attribution hlater ↦ ?_) hnext hmem⟩
    exact (htag attribution hlater).trans hsame.symm

namespace Nested

open Sample

/-- Operation 3 is a duplicate of 2. Below it hang 4 and 5, which wait for nothing that is counted,
and a row leads from 3 back to 5. -/
def trace : Trace := .ofRows
  [stateRow 1 0 1 .init, stateRow 2 100 1 .finish, stateRow 3 10 2 .init, stateRow 4 60 2 .finish,
    stateRow 5 20 3 .init, stateRow 6 50 3 .finish, stateRow 7 25 4 .init, stateRow 8 45 4 .finish,
    stateRow 9 30 5 .init, stateRow 10 40 5 .finish]
  []
  [mapRow 1 2 1 1 (some "CFS"), mapRow 2 3 2 1 (some "CFS"), mapRow 3 4 3 4 (some "CFS"),
    mapRow 4 5 4 5 (some "CFS"), mapRow 5 3 5 5 (some "CFS")]

def attribution (opid : OpId) (map : Int) (dst clr : OpId) (duration : Int) (matched : OpId) :
    Attribution where
  opid
  map
  dst
  clr
  smTag := some "CFS"
  duration
  outcome := .duplicate "cache" ⟨"CFS", matched⟩

def duplicates : List Attribution := [attribution 4 3 3 4 20 3, attribution 5 4 4 5 10 4]

def breakdown : Breakdown where
  total := { opid := 1, fnTag := "request", smTag := none, start := 0, finish := 100 }
  buckets :=
    [{ name := "cache", duration := 50, contributors := 1 },
      { name := "keys", duration := 0, contributors := 0 }]
  uncategorised := 0
  attributions :=
    { opid := 2, map := 1, dst := 1, clr := 1, smTag := some "CFS", duration := 50,
      outcome := .counted "cache" } :: attribution 3 2 2 1 30 1 :: duplicates

theorem ofOperation_root : Breakdown.ofOperation trace.toStore Shared.table 1 =
    .ok (some breakdown, []) := by
  cbv

end Nested

theorem Breakdown.isDuplicate_of_nested :
    ofOperation Nested.trace.toStore Shared.table 1 = .ok (some Nested.breakdown, []) ∧
      ∀ attribution ∈ Nested.attribution 3 2 2 1 30 1 :: Nested.duplicates,
        attribution.outcome.isDuplicate = true := by
  refine ⟨Nested.ofOperation_root, ?_⟩
  apply isDuplicate_of_chain Nested.trace.namesDestinations Nested.ofOperation_root
  · exact fun _ hmem ↦ List.mem_cons_of_mem _ hmem
  · simp [Nested.duplicates, Nested.attribution]
  · simp [Nested.duplicates, Nested.attribution]
  · rfl

end OpTrace

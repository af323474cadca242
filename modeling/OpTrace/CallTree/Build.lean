import OpTrace.CallTree.Basic
import OpTrace.Request

/-!
# Building call trees

A tree grows from its root. The children of an operation are the sources of the map rows that name
it as destination or as clearance operation, in the order of recording. Each operation is expanded
once, depth first, its first new child before the others.

A child hangs off its clearance operation if that is in the tree, and else off the operation that
is being expanded. A child that is met again gets further edges, and an edge that would close a
cycle is dropped and found. A child without a complete span is found once and then passed over.

Only operations that a map row of the store names as its source enter the tree, and none enters it
twice; this is why the growth ends.
-/

namespace OpTrace

namespace CallTree

/-- Keeps the first of neighbouring rows with the same number. -/
def dropRepeats (last : Option Int) : List MapRow → List MapRow
  | [] => []
  | row :: rows =>
    if last = some row.id then dropRepeats last rows
    else row :: dropRepeats (some row.id) rows

theorem mem_of_mem_dropRepeats {last : Option Int} {rows : List MapRow} {row : MapRow}
    (h : row ∈ dropRepeats last rows) : row ∈ rows := by
  induction rows generalizing last with
  | nil => simp [dropRepeats] at h
  | cons first rest ih =>
    simp only [dropRepeats] at h
    split at h
    · exact List.mem_cons_of_mem _ (ih h)
    · rcases List.mem_cons.mp h with rfl | hrest
      · exact List.mem_cons_self
      · exact List.mem_cons_of_mem _ (ih hrest)

/-- The rows into and cleared by an operation, in the order of recording, each number once. -/
def mergeLinks (into clearedBy : List MapRow) : List MapRow :=
  dropRepeats none ((into ++ clearedBy).mergeSort fun a b ↦ a.id ≤ b.id)

/-- An operation with the rows that lead to its children. -/
structure Expansion (store : Store) where
  opid : OpId
  links : List MapRow
  src_mem_sources : ∀ row ∈ links, row.src ∈ store.sources

/-- Asks for the rows that lead to the children of an operation. A row that names the operation as
its own child leads nowhere and is found. -/
def expansionOf (store : Store) (opid : OpId) : StoreResult (Expansion store × Findings) :=
  match hinto : store.mapsInto opid with
  | .error error => .error error
  | .ok into =>
    match hcleared : store.mapsClearedBy opid with
    | .error error => .error error
    | .ok clearedBy =>
      let rows := mergeLinks into clearedBy
      let links := rows.filter (·.src ≠ opid)
      let loops := rows.filter (·.src = opid)
      have src_mem_sources : ∀ row ∈ links, row.src ∈ store.sources := by
        intro row hrow
        have hrows := mem_of_mem_dropRepeats (List.mem_filter.mp hrow).1
        rcases List.mem_append.mp (List.mem_mergeSort.mp hrows) with h | h
        · exact store.mem_sources_of_mapsInto hinto h
        · exact store.mem_sources_of_mapsClearedBy hcleared h
      .ok ({ opid, links, src_mem_sources },
        loops.map fun row ↦ .cycleSkipped row.id row.src opid)

/-- A tree that grows. -/
structure Growth where
  tree : CallTree
  /-- children without a complete span -/
  rejected : List OpId := []
  /-- children that entered the tree during the expansion of one operation -/
  entered : List OpId := []
  deriving DecidableEq, Repr

namespace Growth

/-- Attaches the child of a row, or finds that this would close a cycle. -/
def attach (growth : Growth) (parent : OpId) (row : MapRow) : Growth :=
  { growth with
    tree := match growth.tree.attach? parent row.src with
      | some tree => tree
      | none => growth.tree.report [.cycleSkipped row.id row.src parent] }

/-- Follows one row while operation `current` is expanded. -/
def follow (store : Store) (current : OpId) (growth : Growth) (row : MapRow) :
    StoreResult Growth :=
  if row.src ∈ growth.rejected then .ok growth
  else
    let parent := if growth.tree.contains row.clr then row.clr else current
    if growth.tree.contains row.src then .ok (growth.attach parent row)
    else do
      match ← store.resolve row.src with
      | .incomplete finding =>
        return { growth with
          tree := growth.tree.report [finding]
          rejected := row.src :: growth.rejected }
      | .complete span =>
        let notes := Annotations.ofAttributes row.src (← store.attributesOf row.src)
        let grown : Growth := { growth with
          tree := growth.tree.addOperation span (some parent) notes
          entered := growth.entered ++ [row.src] }
        return grown.attach parent row

def followAll (store : Store) (current : OpId) (growth : Growth) :
    List MapRow → StoreResult Growth
  | [] => .ok growth
  | row :: rows => do followAll store current (← growth.follow store current row) rows

@[simp] theorem opids_attach (growth : Growth) (parent : OpId) (row : MapRow) :
    (growth.attach parent row).tree.opids = growth.tree.opids := by
  simp only [attach]
  split
  · next h => exact opids_of_attach? h
  · rfl

@[simp] theorem entered_attach (growth : Growth) (parent : OpId) (row : MapRow) :
    (growth.attach parent row).entered = growth.entered := rfl

/-- Following a row lets at most its child enter the tree, and only if it is new. -/
theorem opids_of_follow {store : Store} {current : OpId} {growth grown : Growth} {row : MapRow}
    (h : growth.follow store current row = .ok grown) :
    ∃ more, grown.tree.opids = growth.tree.opids ++ more ∧
      grown.entered = growth.entered ++ more ∧
      ∀ opid ∈ more, opid = row.src ∧ opid ∉ growth.tree.opids := by
  unfold follow at h
  split at h
  · cases h; exact ⟨[], by simp⟩
  · dsimp only at h
    generalize (if growth.tree.contains row.clr then row.clr else current) = parent at h
    split at h
    · cases h; exact ⟨[], by simp⟩
    · next hnew =>
      simp only [contains, decide_eq_true_eq] at hnew
      cases hres : store.resolve row.src with
      | error e => simp [hres, bind, Except.bind] at h
      | ok resolution =>
        cases resolution with
        | incomplete finding =>
          simp only [hres, bind, Except.bind, pure, Except.pure, Except.ok.injEq] at h
          subst h
          exact ⟨[], by simp⟩
        | complete span =>
          have hspan := Store.opid_of_resolve hres
          cases hattr : store.attributesOf row.src with
          | error e => simp [hres, hattr, bind, Except.bind] at h
          | ok rows =>
            simp only [hres, hattr, bind, Except.bind, pure, Except.pure, Except.ok.injEq] at h
            subst h
            exact ⟨[row.src], by simp [hspan], by simp, by simpa using hnew⟩

/-- Following rows lets some of their children enter the tree, each of them new. -/
theorem opids_of_followAll {store : Store} {current : OpId} {rows : List MapRow}
    {growth grown : Growth} (h : growth.followAll store current rows = .ok grown) :
    ∃ more, grown.tree.opids = growth.tree.opids ++ more ∧
      grown.entered = growth.entered ++ more ∧
      ∀ opid ∈ more, (∃ row ∈ rows, opid = row.src) ∧ opid ∉ growth.tree.opids := by
  induction rows generalizing growth with
  | nil =>
    cases h
    exact ⟨[], by simp⟩
  | cons row rows ih =>
    simp only [followAll, bind, Except.bind] at h
    split at h
    · cases h
    · next next hnext =>
      obtain ⟨first, hopids, hentered, hfirst⟩ := opids_of_follow hnext
      obtain ⟨rest, hopids', hentered', hrest⟩ := ih h
      refine ⟨first ++ rest, by simp [hopids', hopids], by simp [hentered', hentered], ?_⟩
      intro opid hopid
      rcases List.mem_append.mp hopid with hf | hr
      · exact ⟨⟨row, List.mem_cons_self, (hfirst opid hf).1⟩, (hfirst opid hf).2⟩
      · obtain ⟨⟨source, hsource, heq⟩, hout⟩ := hrest opid hr
        refine ⟨⟨source, List.mem_cons_of_mem _ hsource, heq⟩, fun hin ↦ hout ?_⟩
        rw [hopids]
        exact List.mem_append_left _ hin

end Growth

/-- Prepares the operations that entered the tree for expansion, in front of those that wait
already. The last one is asked for first. -/
def prepare (store : Store) (tree : CallTree) (pending : List (Expansion store)) :
    List OpId → StoreResult (CallTree × List (Expansion store))
  | [] => .ok (tree, pending)
  | opid :: opids => do
    let (tree, pending) ← prepare store tree pending opids
    let (expansion, loops) ← expansionOf store opid
    return (tree.report loops, expansion :: pending)

theorem opids_of_prepare {store : Store} {tree prepared : CallTree}
    {pending waiting : List (Expansion store)} {opids : List OpId}
    (h : prepare store tree pending opids = .ok (prepared, waiting)) :
    prepared.opids = tree.opids := by
  induction opids generalizing prepared waiting with
  | nil => cases h; rfl
  | cons opid opids ih =>
    simp only [prepare, bind, Except.bind] at h
    split at h
    · cases h
    · next below hbelow =>
      split at h
      · cases h
      · simp only [pure, Except.pure, Except.ok.injEq, Prod.mk.injEq] at h
        rw [← h.1, opids_report]
        exact ih hbelow

def expandAll (store : Store) (tree : CallTree) (rejected : List OpId)
    (pending : List (Expansion store)) : StoreResult CallTree :=
  match pending with
  | [] => .ok tree
  | next :: pending =>
    match _hgrown : Growth.followAll store next.opid { tree, rejected } next.links with
    | .error error => .error error
    | .ok grown =>
      match _hprepared : prepare store grown.tree pending grown.entered with
      | .error error => .error error
      | .ok (prepared, waiting) => expandAll store prepared grown.rejected waiting
termination_by (undiscovered store.sources tree.opids, pending.length)
decreasing_by
  simp_wf
  obtain ⟨more, hopids, hentered, hmore⟩ := Growth.opids_of_followAll _hgrown
  have hprep := opids_of_prepare _hprepared
  rw [hprep, hopids]
  cases more with
  | nil =>
    simp only [List.append_nil] at hentered
    simp only [hentered, prepare, Except.ok.injEq, Prod.mk.injEq] at _hprepared
    rw [← _hprepared.2]
    simp [Prod.lex_def]
  | cons opid others =>
    obtain ⟨⟨row, hrow, heq⟩, hnew⟩ := hmore opid List.mem_cons_self
    have hsource : opid ∈ store.sources := heq ▸ next.src_mem_sources row hrow
    exact Prod.Lex.left _ _ (undiscovered_append_lt hsource hnew List.mem_cons_self)

/-- Builds the tree below operation `root`. The root must have a complete span. -/
def build (store : Store) (root : OpId) : RequestResult CallTree := do
  let states ← (store.statesOf root).lift
  let attributes ← (store.attributesOf root).lift
  let (expansion, loops) ← (expansionOf store root).lift
  if states = [] ∧ attributes = [] ∧ expansion.links = [] then
    throw (.insufficientData (.unknownOperation root))
  match Resolution.ofStates root states with
  | .incomplete finding => throw (.insufficientData (.noSpan root finding))
  | .complete span =>
    let tree : CallTree := { root, findings := loops }
    let tree := tree.addOperation span none (Annotations.ofAttributes root attributes)
    (expandAll store tree [] [expansion]).lift

end CallTree

end OpTrace

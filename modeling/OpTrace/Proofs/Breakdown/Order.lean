import OpTrace.Proofs.Breakdown.Tally

/-!
# In what order descendants are attributed

The distance of an operation is the least number of map rows that lead to it from the root. A
descent discovers operations in the order of their distance. At any time the operations that wait
are at most one step apart, and all operations that are no farther away than the first of them are
discovered already.

Each descendant is attributed through the row by which it was discovered. Among the rows that lead
to the descendant from any discovered operation, this is the one whose destination was discovered
first, and of several such rows the one that the store lists first. Its destination is one step
closer to the root.
-/

namespace OpTrace

open Relation

variable {store : Store} {maps : List MapRow} {root : OpId}

/-- That many map rows, one after the other, lead from the root to the operation. -/
inductive Leads (maps : List MapRow) (root : OpId) : Nat → OpId → Prop where
  | start : Leads maps root 0 root
  | next {steps : Nat} {parent child : OpId} :
    Leads maps root steps parent → Starts maps parent child → Leads maps root (steps + 1) child

/-- The least number of map rows that lead from the root to the operation. -/
noncomputable def distance (maps : List MapRow) (root opid : OpId) : Nat :=
  sInf {steps | Leads maps root steps opid}

section Distance

variable {opid parent child : OpId}

theorem exists_leads_iff :
    (∃ steps, Leads maps root steps opid) ↔ ReflTransGen (Starts maps) root opid := by
  constructor
  · rintro ⟨steps, h⟩
    induction h with
    | start => exact .refl
    | next _ hstarts ih => exact ih.tail hstarts
  · intro h
    induction h with
    | refl => exact ⟨0, .start⟩
    | tail _ hstarts ih =>
      obtain ⟨steps, hsteps⟩ := ih
      exact ⟨steps + 1, hsteps.next hstarts⟩

theorem distance_le {steps : Nat} (h : Leads maps root steps opid) :
    distance maps root opid ≤ steps :=
  Nat.sInf_le h

theorem leads_distance (h : ReflTransGen (Starts maps) root opid) :
    Leads maps root (distance maps root opid) opid :=
  Nat.sInf_mem (exists_leads_iff.mpr h)

/-- A child is at most one step farther away. -/
theorem distance_le_of_starts (h : ReflTransGen (Starts maps) root parent)
    (hstarts : Starts maps parent child) :
    distance maps root child ≤ distance maps root parent + 1 :=
  distance_le ((leads_distance h).next hstarts)

/-- Every other operation that rows lead to is the child of one that is a step closer. -/
theorem exists_closer (h : ReflTransGen (Starts maps) root child) (hother : child ≠ root) :
    ∃ parent, Starts maps parent child ∧ ReflTransGen (Starts maps) root parent ∧
      distance maps root parent + 1 = distance maps root child := by
  have hleads := leads_distance h
  generalize hsteps : distance maps root child = steps at hleads
  cases hleads with
  | start => exact absurd rfl hother
  | @next steps parent _ hparent hstarts =>
    have hpath := exists_leads_iff.mp ⟨steps, hparent⟩
    have hle := distance_le hparent
    have hge := distance_le_of_starts hpath hstarts
    exact ⟨parent, hstarts, hpath, by omega⟩

end Distance

/-! ## Levels of a descent -/

/-- The state of a descent whose children of `done` are known, when `queue` waits. All that is known
is in the order of distance, and what waits is at most one step apart. -/
structure Levelled (maps : List MapRow) (root : OpId) (done queue : List OpId) : Prop where
  root_mem : root ∈ done ++ queue
  path : ∀ opid ∈ done ++ queue, ReflTransGen (Starts maps) root opid
  closed : ∀ opid ∈ done, ∀ child, Starts maps opid child → child ∈ done ++ queue
  sorted : (done ++ queue).Pairwise fun first second ↦
    distance maps root first ≤ distance maps root second
  near : ∀ first ∈ queue, ∀ second ∈ queue,
    distance maps root second ≤ distance maps root first + 1

namespace Levelled

variable {done queue : List OpId} {first opid child : OpId}

theorem start : Levelled maps root [] [root] where
  root_mem := List.mem_singleton_self root
  path opid hopid := by
    rw [List.mem_singleton.mp hopid]
  closed opid hopid := nomatch hopid
  sorted := List.pairwise_singleton _ _
  near first hfirst second hsecond := by
    rw [List.mem_singleton.mp hfirst, List.mem_singleton.mp hsecond]
    exact Nat.le_succ _

/-- Nothing that was looked at is farther away than the first operation that waits. -/
theorem distance_le_first (h : Levelled maps root done (first :: queue)) (hopid : opid ∈ done) :
    distance maps root opid ≤ distance maps root first :=
  (List.pairwise_append.mp h.sorted).2.2 opid hopid first List.mem_cons_self

/-- Nothing that waits is closer than the first operation that waits. -/
theorem first_le_distance (h : Levelled maps root done (first :: queue))
    (hopid : opid ∈ first :: queue) : distance maps root first ≤ distance maps root opid := by
  rcases List.mem_cons.mp hopid with rfl | hlater
  · exact Nat.le_refl _
  · exact (List.pairwise_cons.mp (List.pairwise_append.mp h.sorted).2.1).1 opid hlater

/-- All operations up to the distance of the first one that waits are known. -/
theorem mem_of_distance_le (h : Levelled maps root done (first :: queue))
    (hpath : ReflTransGen (Starts maps) root opid)
    (hle : distance maps root opid ≤ distance maps root first) :
    opid ∈ done ++ first :: queue := by
  induction hsteps : distance maps root opid generalizing opid with
  | zero =>
    have hleads := leads_distance hpath
    rw [hsteps] at hleads
    cases hleads
    exact h.root_mem
  | succ steps ih =>
    by_cases hroot : opid = root
    · exact hroot ▸ h.root_mem
    · obtain ⟨parent, hstarts, hparent, hcloser⟩ := exists_closer hpath hroot
      rcases List.mem_append.mp (ih hparent (by omega) (by omega)) with hdone | hwaits
      · exact h.closed parent hdone opid hstarts
      · -- a parent that waits would not be closer than the first one that waits
        have := h.first_le_distance hwaits
        omega

/-- A new child of the first operation that waits is one step farther away. -/
theorem distance_child (h : Levelled maps root done (first :: queue))
    (hstarts : Starts maps first child) (hnew : child ∉ done ++ first :: queue) :
    distance maps root child = distance maps root first + 1 := by
  have hpath := h.path first (List.mem_append_right _ List.mem_cons_self)
  have hle := distance_le_of_starts hpath hstarts
  have hlt : ¬ distance maps root child ≤ distance maps root first := fun hclose ↦
    hnew (h.mem_of_distance_le (hpath.tail hstarts) hclose)
  omega

/-- The new children of the first operation that waits take their place behind the others. -/
theorem step {opids : List OpId} (h : Levelled maps root done (first :: queue))
    (hopids : ∀ child, child ∈ opids ↔ Starts maps first child ∧ child ∉ done ++ first :: queue) :
    Levelled maps root (done ++ [first]) (queue ++ opids) := by
  have hknown : done ++ [first] ++ (queue ++ opids) = done ++ first :: queue ++ opids := by simp
  have hfar : ∀ child ∈ opids, distance maps root child = distance maps root first + 1 :=
    fun child hchild ↦ h.distance_child ((hopids child).mp hchild).1 ((hopids child).mp hchild).2
  have hwithin : ∀ opid ∈ done ++ first :: queue,
      distance maps root opid ≤ distance maps root first + 1 := by
    intro opid hopid
    rcases List.mem_append.mp hopid with hdone | hwaits
    · exact Nat.le_succ_of_le (h.distance_le_first hdone)
    · exact h.near first List.mem_cons_self opid hwaits
  refine ⟨?_, ?_, ?_, ?_, ?_⟩
  · rw [hknown]
    exact List.mem_append_left _ h.root_mem
  · rw [hknown]
    refine List.forall_mem_append.mpr ⟨h.path, fun child hchild ↦ ?_⟩
    exact (h.path first (by simp)).tail ((hopids child).mp hchild).1
  · intro opid hopid child hstarts
    rw [hknown]
    rcases List.mem_append.mp hopid with hdone | hfirst
    · exact List.mem_append_left _ (h.closed opid hdone child hstarts)
    · obtain rfl := List.mem_singleton.mp hfirst
      by_cases hold : child ∈ done ++ opid :: queue
      · exact List.mem_append_left _ hold
      · exact List.mem_append_right _ ((hopids child).mpr ⟨hstarts, hold⟩)
  · rw [hknown]
    refine List.pairwise_append.mpr ⟨h.sorted, ?_, fun opid hopid child hchild ↦ ?_⟩
    · exact List.pairwise_of_forall_mem_list fun one hone other hother ↦ by
        rw [hfar one hone, hfar other hother]
    · rw [hfar child hchild]
      exact hwithin opid hopid
  · -- all that waits now is as far away as the first operation was, or one step farther
    have hlevel : ∀ opid ∈ queue ++ opids,
        distance maps root first ≤ distance maps root opid ∧
          distance maps root opid ≤ distance maps root first + 1 := by
      refine List.forall_mem_append.mpr ⟨fun opid hopid ↦ ?_, fun child hchild ↦ ?_⟩
      · have hwaits := List.mem_cons_of_mem first hopid
        exact ⟨h.first_le_distance hwaits, hwithin opid (List.mem_append_right _ hwaits)⟩
      · rw [hfar child hchild]
        exact ⟨Nat.le_succ _, Nat.le_refl _⟩
    intro one hone other hother
    have := hlevel one hone
    have := hlevel other hother
    omega

/-- When nothing waits, all operations that rows lead to are known. -/
theorem mem_iff (h : Levelled maps root done []) :
    opid ∈ done ↔ ReflTransGen (Starts maps) root opid := by
  have hdone : done ++ [] = done := List.append_nil done
  constructor
  · intro hopid
    exact h.path opid (hdone.symm ▸ hopid)
  · intro hpath
    induction hpath with
    | refl => exact hdone ▸ h.root_mem
    | tail _ hstarts ih => exact hdone ▸ h.closed _ ih _ hstarts

end Levelled

/-- The row of a visit comes first among those that lead to its operation. No operation before its
destination starts the operation that is visited, and the store lists no other such row before. -/
structure Visit.ComesFirst (visit : Visit) (store : Store) (maps : List MapRow)
    (order : List OpId) : Prop where
  mem : visit.row ∈ maps
  earlier : ∃ before behind, order = before ++ visit.row.dst :: behind ∧
    ∀ opid ∈ before, ¬ Starts maps opid visit.opid
  listed : ∃ rows, store.mapsInto visit.row.dst = .ok rows ∧
    rows.find? (·.src = visit.opid) = some visit.row

namespace Visit.ComesFirst

variable {visit : Visit} {order : List OpId}

theorem append (h : visit.ComesFirst store maps order) (more : List OpId) :
    visit.ComesFirst store maps (order ++ more) := by
  obtain ⟨before, behind, rfl, hbefore⟩ := h.earlier
  exact ⟨h.mem, ⟨before, behind ++ more, by simp, hbefore⟩, h.listed⟩

theorem starts (h : visit.ComesFirst store maps order) :
    Starts maps visit.row.dst visit.opid :=
  ⟨visit.row, h.mem, rfl, rfl⟩

/-- No row that leads to the operation has a destination that comes earlier. -/
theorem idxOf_le (h : visit.ComesFirst store maps order) {row : MapRow} (hrow : row ∈ maps)
    (hsrc : row.src = visit.opid) : order.idxOf visit.row.dst ≤ order.idxOf row.dst := by
  obtain ⟨before, behind, rfl, hbefore⟩ := h.earlier
  have hown : visit.row.dst ∉ before := fun hmem ↦ hbefore _ hmem h.starts
  have hother : row.dst ∉ before := fun hmem ↦ hbefore _ hmem ⟨row, hrow, rfl, hsrc⟩
  rw [List.idxOf_append_of_notMem hown, List.idxOf_append_of_notMem hother, List.idxOf_cons_self]
  omega

/-- Where operations come in the order of distance, the destination is one step closer. -/
theorem distance_eq (h : visit.ComesFirst store maps order) (horder : Levelled maps root order [])
    (hother : visit.opid ≠ root) :
    distance maps root visit.row.dst + 1 = distance maps root visit.opid := by
  have hmem : visit.row.dst ∈ order := by
    obtain ⟨before, behind, rfl, -⟩ := h.earlier
    simp
  have hpath := horder.mem_iff.mp hmem
  have hle := distance_le_of_starts hpath h.starts
  obtain ⟨parent, hparent, hparentPath, hcloser⟩ := exists_closer (hpath.tail h.starts) hother
  have hdst : distance maps root visit.row.dst ≤ distance maps root parent := by
    have hparentMem := horder.mem_iff.mpr hparentPath
    have hsorted := horder.sorted
    obtain ⟨before, behind, rfl, hbefore⟩ := h.earlier
    rw [List.append_nil] at hsorted
    -- the closer parent is not among those before the destination
    rcases List.mem_append.mp hparentMem with hin | hin
    · exact absurd hparent (hbefore parent hin)
    · rcases List.mem_cons.mp hin with rfl | hlater
      · exact Nat.le_refl _
      · exact (List.pairwise_cons.mp (List.pairwise_append.mp hsorted).2.1).1 parent hlater
  omega

end Visit.ComesFirst

theorem find?_of_mem_newSources {known : List OpId} {rows : List MapRow} {row : MapRow}
    (h : row ∈ newSources known rows) : rows.find? (·.src = row.src) = some row := by
  induction rows generalizing known with
  | nil => cases h
  | cons first rest ih =>
    have hnew := (mem_of_mem_newSources h).2
    simp only [newSources] at h
    split at h
    · next hfirst =>
      have hne : first.src ≠ row.src := fun heq ↦ hnew (heq ▸ hfirst)
      rw [List.find?_cons_of_neg (by simpa using hne)]
      exact ih h
    · rcases List.mem_cons.mp h with rfl | hrest
      · exact List.find?_cons_of_pos (by simp)
      · have hlater := (mem_of_mem_newSources hrest).2
        have hne : first.src ≠ row.src := fun heq ↦ hlater (heq ▸ List.mem_cons_self)
        rw [List.find?_cons_of_neg (by simpa using hne)]
        exact ih hrest

/-- The new children of an operation are visited through rows that come first. -/
theorem comesFirst_of_visitAll {done queue : List OpId} {first : OpId} {rows : List MapRow}
    {visits : List Visit} (hlevels : Levelled maps root done (first :: queue))
    (hinto : store.mapsInto first = .ok rows)
    (hrows : ∀ row, row ∈ rows ↔ row ∈ maps ∧ row.dst = first)
    (h : visitAll store (newSources (done ++ first :: queue) rows) = .ok visits) :
    ∀ visit ∈ visits, visit.ComesFirst store maps (done ++ first :: queue) := by
  intro visit hvisit
  have hfresh : visit.row ∈ newSources (done ++ first :: queue) rows := by
    rw [← map_row_visitAll h]
    exact List.mem_map_of_mem hvisit
  obtain ⟨hrow, hnew⟩ := mem_of_mem_newSources hfresh
  obtain ⟨hmem, hdst⟩ := (hrows visit.row).mp hrow
  refine ⟨hmem, ⟨done, queue, by rw [hdst], fun opid hopid hstarts ↦ ?_⟩, rows, ?_, ?_⟩
  · exact hnew (hlevels.closed opid hopid _ hstarts)
  · rw [hdst]
    exact hinto
  · exact find?_of_mem_newSources hfresh

/-- A walk on from a state with levels ends in one, and each of its visits goes through a row that
comes first. -/
theorem levelled_of_descendFrom (hserves : store.Serves maps) {known done queue : List OpId}
    {visits : List Visit} (hknown : known = done ++ queue)
    (hlevels : Levelled maps root done queue)
    (h : descendFrom store known queue = .ok visits) :
    Levelled maps root (known ++ visits.map Visit.opid) [] ∧
      ∀ visit ∈ visits, visit.ComesFirst store maps (known ++ visits.map Visit.opid) := by
  fun_induction descendFrom store known queue generalizing done visits with
  | case1 known =>
    cases h
    subst hknown
    simpa using hlevels
  | case2 known first queue error herror => cases h
  | case3 known first queue rows hrows fresh =>
    rename_i opids ih
    obtain ⟨found, hfound, h⟩ := bind_eq_ok.mp h
    obtain ⟨rest, hrest, h⟩ := bind_eq_ok.mp h
    obtain rfl := pure_eq_ok.mp h
    obtain ⟨rows', hrows', hmem⟩ := hserves.into first
    obtain rfl := Except.ok.inj (hrows.symm.trans hrows')
    subst hknown
    have hopids : opids = found.map Visit.opid := (of_visitAll hfound).1.symm
    have hnext : Levelled maps root (done ++ [first]) (queue ++ opids) :=
      hlevels.step fun child ↦ hopids ▸ (opids_of_visitAll hmem hfound).2 child
    obtain ⟨hfinal, hlater⟩ := ih (by simp) hnext hrest
    have horder : done ++ first :: queue ++ (found ++ rest).map Visit.opid =
        done ++ first :: queue ++ opids ++ rest.map Visit.opid := by
      rw [List.map_append, hopids, List.append_assoc (_ ++ _)]
    rw [horder]
    refine ⟨hfinal, List.forall_mem_append.mpr ⟨fun visit hvisit ↦ ?_, hlater⟩⟩
    have hfirst := comesFirst_of_visitAll hlevels hrows hmem hfound visit hvisit
    exact (hfirst.append opids).append _

/-- The order in which a descent discovers operations, from the root on. -/
def discoveries (root : OpId) (visits : List Visit) : List OpId := root :: visits.map Visit.opid

theorem levelled_of_descend (hserves : store.Serves maps) {visits : List Visit}
    (h : descend store root = .ok visits) :
    Levelled maps root (discoveries root visits) [] ∧
      ∀ visit ∈ visits, visit.ComesFirst store maps (discoveries root visits) :=
  levelled_of_descendFrom hserves (List.nil_append _).symm .start h

/-! ## The order of attributions -/

/-- The attribution records a row that leads to its operation from one that is a step closer. Among
the rows that lead there from any operation found, it is the one whose destination was found first,
and it is the first such row that the store lists. -/
structure Attribution.ThroughFirst (attribution : Attribution) (store : Store)
    (maps : List MapRow) (root : OpId) (order : List OpId) : Prop where
  row : ∃ row ∈ maps, row.id = attribution.map ∧ row.src = attribution.opid ∧
    row.dst = attribution.dst ∧ row.clr = attribution.clr ∧
      ∃ rows, store.mapsInto attribution.dst = .ok rows ∧
        rows.find? (·.src = attribution.opid) = some row
  path : ReflTransGen (Starts maps) root attribution.dst
  closer : distance maps root attribution.dst + 1 = distance maps root attribution.opid
  earliest : ∀ row ∈ maps, row.src = attribution.opid → ReflTransGen (Starts maps) root row.dst →
    order.idxOf attribution.dst ≤ order.idxOf row.dst

/-- The attributions come in the order of discovery, which is by distance from the root, and each
goes through the first row that leads to its operation. -/
structure Breakdown.BreadthFirst (breakdown : Breakdown) (store : Store) (maps : List MapRow)
    (root : OpId) (order : List OpId) : Prop where
  nodup : order.Nodup
  mem_iff : ∀ opid, opid ∈ order ↔ ReflTransGen (Starts maps) root opid
  sublist : (breakdown.attributions.map (·.opid)).Sublist order
  sorted : breakdown.attributions.Pairwise fun first second ↦
    distance maps root first.opid ≤ distance maps root second.opid
  first : ∀ attribution ∈ breakdown.attributions, attribution.ThroughFirst store maps root order

/-- Every breakdown is made breadth first. -/
theorem Breakdown.breadthFirst_of_ofOperation (hserves : store.Serves maps)
    {table : CategoryTable} {breakdown : Breakdown} {findings : Findings}
    (h : ofOperation store table root = .ok (some breakdown, findings)) :
    ∃ visits, descend store root = .ok visits ∧
      breakdown.BreadthFirst store maps root (discoveries root visits) := by
  obtain ⟨total, visits, -, hvisits, rfl, -⟩ := descend_of_ofOperation h
  obtain ⟨visits', hvisits', hdescent⟩ := exists_descent hserves root
  obtain rfl := Except.ok.inj (hvisits.symm.trans hvisits')
  obtain ⟨hlevels, hfirst⟩ := levelled_of_descend hserves hvisits
  have hother {visit : Visit} (hvisit : visit ∈ visits) : visit.opid ≠ root :=
    ((hdescent.mem_iff visit.opid).mp (List.mem_map_of_mem hvisit)).1
  have hsublist : ((ofVisits table total visits).attributions.map (·.opid)).Sublist
      (discoveries root visits) := by
    have hopids : (ofVisits table total visits).attributions.map (·.opid) =
        (visits.filter (·.resolution.isComplete)).map Visit.opid :=
      Tally.opids_foldl_see visits (Tally.start table)
    exact hopids ▸ (List.filter_sublist.map _).trans (List.sublist_cons_self _ _)
  refine ⟨visits, hvisits, ?_, fun opid ↦ hlevels.mem_iff, hsublist, ?_, ?_⟩
  · refine List.nodup_cons.mpr ⟨fun hroot ↦ ?_, hdescent.nodup⟩
    exact ((hdescent.mem_iff root).mp hroot).1 rfl
  · have hsorted := hlevels.sorted
    rw [List.append_nil] at hsorted
    have hattributions := List.Pairwise.sublist hsublist hsorted
    rwa [List.pairwise_map] at hattributions
  · intro attribution hattribution
    obtain ⟨visit, hvisit, span, outcome, -, rfl⟩ := Tally.records_foldl_see hattribution
    have hcomes := hfirst visit hvisit
    refine ⟨⟨visit.row, hcomes.mem, rfl, rfl, rfl, rfl, hcomes.listed⟩, ?_, ?_, ?_⟩
    · obtain ⟨before, behind, horder, -⟩ := hcomes.earlier
      exact hlevels.mem_iff.mp (horder ▸ by simp [Tally.record])
    · exact hcomes.distance_eq hlevels (hother hvisit)
    · exact fun row hrow hsrc _ ↦ hcomes.idxOf_le hrow hsrc

/-- In the trace with shared clearance, operation 7 is reached through operation 6, which never
finishes. -/
theorem Breakdown.breadthFirst_of_shared : ∃ visits,
    descend Shared.trace.toStore 1 = .ok visits ∧
      Shared.breakdown.BreadthFirst Shared.trace.toStore Shared.trace.maps.rows 1
        (discoveries 1 visits) :=
  breadthFirst_of_ofOperation Shared.trace.serves Shared.ofOperation_root

end OpTrace

import OpTrace.Proofs.Sample
import OpTrace.Span

/-!
# What a span is made of

The verdict on an operation depends on its state rows through two times only, that of its last
`init` row and that of its last `finish` row. Where the other rows stand, and how many there are,
makes no difference to the duration.

The tags follow other rules than the times. The function's tag is the one of the last row, whatever
state that row enters. The sub-module's tag is the one of the last row that has such a tag at all.
Rows of other operations make no difference to anything.
-/

namespace OpTrace

def lastTime (state : StateType) (rows : List StateRow) : Option Time :=
  (rows.filter (·.state = state)).getLast?.map (·.time)

def lastTag (rows : List StateRow) : Option String := (rows.filterMap (·.smTag)).getLast?

def Resolution.duration? (resolution : Resolution) : Option Int :=
  resolution.span?.map Span.duration

@[simp] theorem Resolution.duration?_complete (span : Span) :
    (complete span).duration? = some span.duration := rfl

@[simp] theorem Resolution.duration?_incomplete (finding : Finding) :
    (incomplete finding).duration? = none := rfl

theorem Resolution.duration?_eq_some {resolution : Resolution} {duration : Int} :
    resolution.duration? = some duration ↔
      ∃ span, resolution = .complete span ∧ span.duration = duration := by
  cases resolution <;> simp

theorem lastTime_cons (state : StateType) (row : StateRow) (rows : List StateRow) :
    lastTime state (row :: rows) =
      (lastTime state rows).or (if row.state = state then some row.time else none) := by
  unfold lastTime
  by_cases h : row.state = state
  · rw [List.filter_cons_of_pos (by simpa using h), List.getLast?_cons, if_pos h]
    cases (rows.filter (·.state = state)).getLast? <;> rfl
  · rw [List.filter_cons_of_neg (by simpa using h), if_neg h, Option.or_none]

theorem lastTime_eq_none {state : StateType} {rows : List StateRow} :
    lastTime state rows = none ↔ ∀ row ∈ rows, row.state ≠ state := by
  simp [lastTime]

theorem lastTag_cons (row : StateRow) (rows : List StateRow) :
    lastTag (row :: rows) = (lastTag rows).or row.smTag := by
  unfold lastTag
  rw [List.filterMap_cons]
  cases row.smTag with
  | none => exact (Option.or_none).symm
  | some tag =>
    rw [List.getLast?_cons]
    cases (rows.filterMap (·.smTag)).getLast? <;> rfl

namespace Sighting

theorem foldl_see (rows : List StateRow) (seen : Sighting) :
    (rows.foldl see seen).start = (lastTime .init rows).or seen.start ∧
      (rows.foldl see seen).finish = (lastTime .finish rows).or seen.finish := by
  induction rows generalizing seen with
  | nil => exact ⟨rfl, rfl⟩
  | cons row rows ih =>
    obtain ⟨hstart, hfinish⟩ := ih (seen.see row)
    rw [List.foldl_cons, hstart, hfinish, lastTime_cons, lastTime_cons]
    cases hstate : row.state <;> simp [see, hstate]

theorem duration?_resolve (seen : Sighting) (opid : OpId) :
    (seen.resolve opid).duration? = seen.start.bind fun start ↦ seen.finish.bind fun finish ↦
      if finish < start then none else some (elapsed start finish) := by
  unfold resolve
  cases seen.start with
  | none => cases seen.finish <;> rfl
  | some start =>
    cases seen.finish with
    | none => rfl
    | some finish => by_cases h : finish < start <;> simp [h, Span.duration]

/-- The tags that rows leave behind. -/
theorem tags_foldl_see (rows : List StateRow) (seen : Sighting) :
    (rows.foldl see seen).fnTag = (rows.getLast?.map (·.fnTag)).or seen.fnTag ∧
      (rows.foldl see seen).smTag = (lastTag rows).or seen.smTag := by
  induction rows generalizing seen with
  | nil => exact ⟨rfl, rfl⟩
  | cons row rows ih =>
    obtain ⟨hfnTag, hsmTag⟩ := ih (seen.see row)
    rw [List.foldl_cons, hfnTag, hsmTag, lastTag_cons, List.getLast?_cons]
    constructor
    · cases rows.getLast? <;> rfl
    · exact Option.or_assoc.symm

end Sighting

/-- The duration that state rows give to an operation. -/
theorem Resolution.duration?_ofStates (opid : OpId) (rows : List StateRow) :
    (ofStates opid rows).duration? =
      (lastTime .init (statesAbout opid rows)).bind fun start ↦
        (lastTime .finish (statesAbout opid rows)).bind fun finish ↦
          if finish < start then none else some (elapsed start finish) := by
  obtain ⟨hstart, hfinish⟩ := Sighting.foldl_see (statesAbout opid rows) {}
  rw [ofStates, Sighting.duration?_resolve, hstart, hfinish, Option.or_none, Option.or_none]

def Missing.names : Missing → StateType → Bool
  | .init, state => state = .init
  | .finish, state => state = .finish
  | .both, _ => true

/-- What is known of operation `opid` follows from its rows, which are in the order of recording. -/
structure Resolution.FollowsFrom (resolution : Resolution) (opid : OpId) (rows : List StateRow) :
    Prop where
  isComplete_iff : resolution.isComplete = true ↔ ∃ start finish,
    lastTime .init rows = some start ∧ lastTime .finish rows = some finish ∧ start ≤ finish
  times : ∀ span, resolution = .complete span → span.opid = opid ∧
    lastTime .init rows = some span.start ∧ lastTime .finish rows = some span.finish
  tags : ∀ span, resolution = .complete span →
    rows.getLast?.map (·.fnTag) = some span.fnTag ∧ span.smTag = lastTag rows
  duration : ∀ span, resolution = .complete span → 0 ≤ span.duration ∧
    span.duration = min (span.finish - span.start) (Int.pow 2 63 - 1)
  inverted : ∀ start finish, lastTime .init rows = some start →
    lastTime .finish rows = some finish → finish < start →
      resolution = .incomplete (.invertedSpan opid start finish)
  missing : ∀ state, (∀ row ∈ rows, row.state ≠ state) → ∃ missing,
    resolution = .incomplete (.incompleteSpan opid missing) ∧
      ∀ other, missing.names other = true ↔ ∀ row ∈ rows, row.state ≠ other

theorem Span.duration_eq {span : Span} (h : span.start ≤ span.finish) :
    0 ≤ span.duration ∧ span.duration = min (span.finish - span.start) (Int.pow 2 63 - 1) := by
  have hnonneg : 0 ≤ span.finish - span.start := Int.sub_nonneg_of_le h
  have hlongest : longest = Int.pow 2 63 - 1 := rfl
  rw [Span.duration, elapsed_of_le h, hlongest, Int.min_comm]
  exact ⟨Int.le_min.mpr ⟨hnonneg, by decide⟩, rfl⟩

namespace Sighting

variable {seen : Sighting} {opid : OpId} {rows : List StateRow}

/-- Without one of the states there is no span, and the finding names what is missing. -/
theorem followsFrom_of_missing (missing : Missing)
    (hresolve : seen.resolve opid = .incomplete (.incompleteSpan opid missing))
    (hnames : ∀ state, missing.names state = true ↔ lastTime state rows = none)
    {state : StateType} (hstate : lastTime state rows = none) :
    (seen.resolve opid).FollowsFrom opid rows := by
  have hnever (start finish : Time) (hstart : lastTime .init rows = some start)
      (hfinish : lastTime .finish rows = some finish) : False := by
    cases state with
    | init => cases hstate.symm.trans hstart
    | finish => cases hstate.symm.trans hfinish
  rw [hresolve]
  constructor
  case isComplete_iff =>
    refine iff_of_false Bool.false_ne_true ?_
    rintro ⟨start, finish, hstart, hfinish, -⟩
    exact hnever start finish hstart hfinish
  case inverted => exact fun start finish hstart hfinish ↦ (hnever start finish hstart hfinish).elim
  case missing =>
    exact fun _ _ ↦ ⟨missing, rfl, fun other ↦ (hnames other).trans lastTime_eq_none⟩
  all_goals exact fun span hspan ↦ nomatch hspan

/-- With both states the two times decide. -/
theorem followsFrom_of_times {start finish : Time} (hinit : lastTime .init rows = some start)
    (hlast : lastTime .finish rows = some finish) (hstart : seen.start = some start)
    (hfinish : seen.finish = some finish) (hfnTag : seen.fnTag = rows.getLast?.map (·.fnTag))
    (hsmTag : seen.smTag = lastTag rows) : (seen.resolve opid).FollowsFrom opid rows := by
  have hresolve : seen.resolve opid =
      if finish < start then .incomplete (.invertedSpan opid start finish)
      else .complete { opid, fnTag := seen.fnTag.getD "", smTag := seen.smTag, start, finish } := by
    simp only [resolve, hstart, hfinish]
  have hseen (state : StateType) : ¬ ∀ row ∈ rows, row.state ≠ state := by
    rw [← lastTime_eq_none]
    cases state with
    | init => simp [hinit]
    | finish => simp [hlast]
  rw [hresolve]
  split
  · next hlt =>
    constructor
    case isComplete_iff => simp [hinit, hlast, hlt]
    case inverted =>
      intro start' finish' hstart' hfinish' _
      obtain rfl := Option.some.inj (hinit.symm.trans hstart')
      obtain rfl := Option.some.inj (hlast.symm.trans hfinish')
      rfl
    case missing => exact fun state hstate ↦ absurd hstate (hseen state)
    all_goals exact fun span hspan ↦ nomatch hspan
  · next hle =>
    constructor
    case isComplete_iff => simp [hinit, hlast, Int.not_lt.mp hle]
    case inverted =>
      intro start' finish' hstart' hfinish' hlt
      obtain rfl := Option.some.inj (hinit.symm.trans hstart')
      obtain rfl := Option.some.inj (hlast.symm.trans hfinish')
      exact absurd hlt hle
    case missing => exact fun state hstate ↦ absurd hstate (hseen state)
    all_goals
      intro span hspan
      obtain rfl := Resolution.complete.inj hspan
    case times => exact ⟨rfl, hinit, hlast⟩
    case duration => exact Span.duration_eq (Int.not_lt.mp hle)
    case tags =>
      refine ⟨?_, hsmTag⟩
      cases hrows : rows.getLast? with
      | none =>
        rw [List.getLast?_eq_none_iff.mp hrows] at hinit
        cases hinit
      | some last => simp [hfnTag, hrows]

/-- The verdict follows from the rows if what was seen does. -/
theorem followsFrom_resolve (hstart : seen.start = lastTime .init rows)
    (hfinish : seen.finish = lastTime .finish rows)
    (hfnTag : seen.fnTag = rows.getLast?.map (·.fnTag)) (hsmTag : seen.smTag = lastTag rows) :
    (seen.resolve opid).FollowsFrom opid rows := by
  cases hinit : lastTime .init rows with
  | none =>
    cases hlast : lastTime .finish rows with
    | none =>
      refine followsFrom_of_missing .both ?_ (fun state ↦ ?_) hinit
      · simp [resolve, hstart, hfinish, hinit, hlast]
      · cases state <;> simp [Missing.names, hinit, hlast]
    | some finish =>
      refine followsFrom_of_missing .init ?_ (fun state ↦ ?_) hinit
      · simp [resolve, hstart, hfinish, hinit, hlast]
      · cases state <;> simp [Missing.names, hinit, hlast]
  | some start =>
    cases hlast : lastTime .finish rows with
    | none =>
      refine followsFrom_of_missing .finish ?_ (fun state ↦ ?_) hlast
      · simp [resolve, hstart, hfinish, hinit, hlast]
      · cases state <;> simp [Missing.names, hinit, hlast]
    | some finish =>
      exact followsFrom_of_times hinit hlast (hstart.trans hinit) (hfinish.trans hlast) hfnTag
        hsmTag

end Sighting

theorem statesAbout_of_forall_ne {opid : OpId} {rows : List StateRow}
    (h : ∀ row ∈ rows, row.opid ≠ opid) : statesAbout opid rows = [] :=
  List.filter_eq_nil_iff.mpr fun row hrow ↦ by simpa using h row hrow

/-- What is known of an operation follows from its rows, and it makes no difference where rows of
other operations stand among them. -/
theorem Resolution.followsFrom_ofStates (opid : OpId) (rows : List StateRow) :
    (ofStates opid rows).FollowsFrom opid (statesAbout opid rows) ∧
      ∀ before others after, rows = before ++ others ++ after → (∀ row ∈ others, row.opid ≠ opid) →
        ofStates opid rows = ofStates opid (before ++ after) := by
  constructor
  · obtain ⟨hstart, hfinish⟩ := Sighting.foldl_see (statesAbout opid rows) {}
    obtain ⟨hfnTag, hsmTag⟩ := Sighting.tags_foldl_see (statesAbout opid rows) {}
    simp only [Option.or_none] at hstart hfinish hfnTag hsmTag
    exact Sighting.followsFrom_resolve hstart hfinish hfnTag hsmTag
  · rintro before others after rfl hothers
    have hown : statesAbout opid (before ++ others ++ after) = statesAbout opid (before ++ after) :=
      calc
        statesAbout opid (before ++ others ++ after) =
            statesAbout opid before ++ statesAbout opid others ++ statesAbout opid after := by
          simp only [statesAbout, List.filter_append]
        _ = statesAbout opid before ++ statesAbout opid after := by
          rw [statesAbout_of_forall_ne hothers, List.append_nil]
        _ = statesAbout opid (before ++ after) := by
          simp only [statesAbout, List.filter_append]
    rw [ofStates, hown, ofStates]

namespace Interleaved

open Sample

def before : List StateRow :=
  [stateRow 1 5 1 .init "read" (some "CFS"), stateRow 2 shortest 1 .init "read" (some "KVS")]

/-- Operation 2 finishes before it begins. -/
def others : List StateRow := [stateRow 3 7 2 .init "write", stateRow 4 6 2 .finish "write"]

def after : List StateRow := [stateRow 5 longest 1 .finish "close"]

end Interleaved

/-- The times of operation 1 are too far apart for a record, and its last tags are of different
rows. -/
theorem Resolution.followsFrom_of_interleaved :
    (ofStates 1 (Interleaved.before ++ Interleaved.others ++ Interleaved.after)).FollowsFrom 1
        (statesAbout 1 (Interleaved.before ++ Interleaved.others ++ Interleaved.after)) ∧
      ofStates 1 (Interleaved.before ++ Interleaved.others ++ Interleaved.after) =
        .complete { opid := 1, fnTag := "close", smTag := some "KVS", start := shortest,
                    finish := longest } := by
  obtain ⟨hfollows, hothers⟩ :=
    followsFrom_ofStates 1 (Interleaved.before ++ Interleaved.others ++ Interleaved.after)
  have hne : ∀ row ∈ Interleaved.others, row.opid ≠ 1 := by decide
  exact ⟨hfollows, (hothers _ _ _ rfl hne).trans (by decide)⟩

end OpTrace

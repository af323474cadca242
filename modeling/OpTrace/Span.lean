import OpTrace.Finding

/-!
# Spans

The span of an operation runs from its `init` state to its `finish` state. State rows are seen in
the order of recording, and a later row replaces what an earlier row of the same kind said, so the
last `init` and the last `finish` count. The tag of the function is the one of the last row; the
tag of the sub-module is the last one that was given at all.

An operation that lacks a state, or that finishes before it begins, has no span. It resolves to a
finding instead and never to a negative duration.
-/

namespace OpTrace

/-- The time that one operation took, and the tags that it carries. -/
structure Span where
  opid : OpId
  fnTag : String
  smTag : Option String
  start : Time
  finish : Time
  deriving DecidableEq, Repr

def Span.duration (span : Span) : Int := elapsed span.start span.finish

/-- What is known of an operation: its span, or why it has none. -/
inductive Resolution where
  | complete (span : Span)
  | incomplete (finding : Finding)
  deriving DecidableEq, Repr

namespace Resolution

def span? : Resolution → Option Span
  | complete span => some span
  | incomplete _ => none

def finding? : Resolution → Option Finding
  | complete _ => none
  | incomplete finding => some finding

def isComplete (resolution : Resolution) : Bool := resolution.span?.isSome

@[simp] theorem finding?_complete (span : Span) : (complete span).finding? = none := rfl

@[simp] theorem finding?_incomplete (finding : Finding) :
    (incomplete finding).finding? = some finding := rfl

@[simp] theorem isComplete_complete (span : Span) : (complete span).isComplete = true := rfl

@[simp] theorem isComplete_incomplete (finding : Finding) :
    (incomplete finding).isComplete = false := rfl

end Resolution

/-- What the state rows of one operation have said so far. -/
structure Sighting where
  start : Option Time := none
  finish : Option Time := none
  fnTag : Option String := none
  smTag : Option String := none
  deriving DecidableEq, Repr

namespace Sighting

def see (seen : Sighting) (row : StateRow) : Sighting :=
  { start := if row.state = .init then some row.time else seen.start
    finish := if row.state = .finish then some row.time else seen.finish
    fnTag := some row.fnTag
    smTag := row.smTag.or seen.smTag }

/-- The verdict on operation `opid` once all its rows are seen. -/
def resolve (seen : Sighting) (opid : OpId) : Resolution :=
  match seen.start, seen.finish with
  | some start, some finish =>
    if finish < start then .incomplete (.invertedSpan opid start finish)
    else .complete { opid, fnTag := seen.fnTag.getD "", smTag := seen.smTag, start, finish }
  | none, some _ => .incomplete (.incompleteSpan opid .init)
  | some _, none => .incomplete (.incompleteSpan opid .finish)
  | none, none => .incomplete (.incompleteSpan opid .both)

end Sighting

/-- The rows among `rows` that are about operation `opid`, in their order. -/
def statesAbout (opid : OpId) (rows : List StateRow) : List StateRow :=
  rows.filter (·.opid = opid)

/-- Resolves operation `opid` from state rows in the order of recording. Rows of other operations
are passed over. -/
def Resolution.ofStates (opid : OpId) (rows : List StateRow) : Resolution :=
  ((statesAbout opid rows).foldl Sighting.see {}).resolve opid

theorem Sighting.opid_of_resolve {seen : Sighting} {opid : OpId} {span : Span}
    (h : seen.resolve opid = .complete span) : span.opid = opid := by
  unfold Sighting.resolve at h
  split at h
  · split at h
    · cases h
    · cases h; rfl
  all_goals cases h

theorem Sighting.start_le_finish_of_resolve {seen : Sighting} {opid : OpId} {span : Span}
    (h : seen.resolve opid = .complete span) : span.start ≤ span.finish := by
  unfold Sighting.resolve at h
  split at h
  · split at h
    · cases h
    · next hle => cases h; exact Int.not_lt.mp hle
  all_goals cases h

/-- A span is about the operation that was resolved. -/
theorem Resolution.opid_of_ofStates {opid : OpId} {rows : List StateRow} {span : Span}
    (h : ofStates opid rows = .complete span) : span.opid = opid :=
  Sighting.opid_of_resolve h

end OpTrace

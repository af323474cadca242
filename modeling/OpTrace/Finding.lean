import OpTrace.Event.Basic

/-!
# Findings

A trace routinely holds operations that were still running when it was taken, and interval
markers that lost their partner. Such an item is left out of the result, and a finding says so.
Findings are values that travel beside a result, in the order in which they were made; they are
not errors.
-/

namespace OpTrace

/-- The states that an operation was never seen to enter. -/
inductive Missing where
  | init
  | finish
  | both
  deriving DecidableEq, Repr

def Missing.phrase : Missing → String
  | init => "init"
  | finish => "finish"
  | both => "init and finish"

/-- One item that was left out of a result. -/
inductive Finding where
  /-- an operation without one of its states -/
  | incompleteSpan (opid : OpId) (missing : Missing)
  /-- an operation that finished before it began -/
  | invertedSpan (opid : OpId) (start finish : Time)
  /-- an interval that was opened and not closed -/
  | unmatchedStart (opid : OpId) (row : Int) (label : String)
  /-- an interval that was closed and not opened -/
  | orphanedEnd (opid : OpId) (row : Int) (label : String)
  /-- an interval that was closed before it was opened -/
  | invertedInterval (opid : OpId) (label : String) (start finish : Time)
  /-- a link that would have closed a cycle between operations -/
  | cycleSkipped (map : Int) (src attach : OpId)
  deriving DecidableEq, Repr

namespace Finding

/-- The operation that the finding is about; for a link, the child. -/
def opid : Finding → OpId
  | incompleteSpan opid _ => opid
  | invertedSpan opid _ _ => opid
  | unmatchedStart opid _ _ => opid
  | orphanedEnd opid _ _ => opid
  | invertedInterval opid _ _ _ => opid
  | cycleSkipped _ src _ => src

def message : Finding → String
  | incompleteSpan opid missing =>
    s!"opid {opid}: incomplete states (missing {missing.phrase}), discarding this sample"
  | invertedSpan opid start finish =>
    s!"opid {opid}: finish ({finish}) precedes init ({start}), discarding this sample"
  | unmatchedStart opid row label =>
    s!"opid {opid}: interval '{label}' started at attribute {row} is never closed"
  | orphanedEnd opid row label =>
    s!"opid {opid}: interval '{label}' closed at attribute {row} was never opened"
  | invertedInterval opid label start finish =>
    s!"opid {opid}: interval '{label}' ends ({finish}) before it starts ({start})"
  | cycleSkipped map src attach =>
    s!"map {map}: linking opid {src} under {attach} would create a cycle, edge dropped"

def discardsSpan : Finding → Bool
  | incompleteSpan _ _ => true
  | invertedSpan _ _ _ => true
  | _ => false

end Finding

/-- What was found while one request was answered, in the order in which it was found. -/
abbrev Findings := List Finding

namespace Findings

def mentions (findings : Findings) (opid : OpId) : Bool := findings.any (·.opid = opid)

def discardedSpans (findings : Findings) : Nat := findings.countP Finding.discardsSpan

end Findings

end OpTrace

import OpTrace.Event.Basic

/-!
# Windows

Operations of one tag are listed in the order of their first appearance. A window skips forward to
the first one that is not below a given number and stops after a given count. What follows the
first one is kept even where its number is smaller again.
-/

namespace OpTrace

/-- A part of a list of operations. -/
structure Window where
  start : Option OpId := none
  limit : Option Nat := none
  deriving DecidableEq, Repr

namespace Window

/-- The operations from the first one that is not below the start. -/
def skip (window : Window) (opids : List OpId) : List OpId :=
  match window.start with
  | none => opids
  | some start => opids.dropWhile (· < start)

def apply (window : Window) (opids : List OpId) : List OpId :=
  match window.limit with
  | none => window.skip opids
  | some limit => (window.skip opids).take limit

end Window

end OpTrace

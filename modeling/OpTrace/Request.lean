import OpTrace.Store.Basic

/-!
# Requests that fail

A request about a trace fails as a whole if the store cannot answer, if the options exclude each
other, or if the trace does not hold enough to answer from. Findings about single operations are
no failures.
-/

namespace OpTrace

/-- What a trace lacks for a request. -/
inductive Shortage where
  /-- no row is about the operation -/
  | unknownOperation (opid : OpId)
  /-- the operation has no complete span -/
  | noSpan (opid : OpId) (finding : Finding)
  /-- no state row of the operation carries a matching tag -/
  | otherTag (opid : OpId) (pattern : String)
  /-- no operation is selected -/
  | nothingSelected (pattern : String)
  deriving DecidableEq, Repr

namespace Shortage

def subject : Shortage → String
  | unknownOperation opid => s!"opid {opid}"
  | noSpan opid _ => s!"opid {opid}"
  | otherTag opid _ => s!"opid {opid}"
  | nothingSelected pattern => s!"fn_tag '{pattern}'"

def detail : Shortage → String
  | unknownOperation _ => "no states, attributes or maps"
  | noSpan _ finding => finding.message
  | otherTag _ pattern => s!"no states with fn_tag matching '{pattern}'"
  | nothingSelected _ => "no operations selected"

end Shortage

/-- Why a request has no answer. -/
inductive RequestError where
  | insufficientData (shortage : Shortage)
  /-- rows were to be sorted and broken down at once -/
  | sortedBreakdown
  | store (error : StoreError)
  deriving DecidableEq, Repr

def RequestError.message : RequestError → String
  | insufficientData shortage =>
    s!"Could not find enough details in db for {shortage.subject}: {shortage.detail}"
  | sortedBreakdown =>
    "Conflicting options: sort order cannot be combined with a sub-module breakdown"
  | store error => error.message

abbrev RequestResult (α : Type) := Except RequestError α

/-- The answer of a store as part of the answer to a request. -/
def StoreResult.lift {α : Type} : StoreResult α → RequestResult α
  | .ok a => .ok a
  | .error error => .error (.store error)

end OpTrace

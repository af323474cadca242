import OpTrace.Breakdown.Descent
import OpTrace.Breakdown.Ledger
import OpTrace.Category.Table
import OpTrace.Request

/-!
# Breakdowns

A breakdown tells where the time of one operation went. Every descendant with a complete span is
attributed once, in the order of the descent. Its tag is the one of its span, or else the one of
the map row that reached it. A tag that a category has goes through the ledger, and counted time
is added to the category's bucket; without such a tag the time is uncategorised.

Each attribution is kept, so the list of them explains the buckets.
-/

namespace OpTrace

/-- What became of the time of one descendant. -/
inductive Outcome where
  /-- it was added to the bucket of the category -/
  | counted (category : String)
  /-- it was booked before under the matched key -/
  | duplicate (category : String) (matched : LedgerKey)
  /-- it has no tag, or one that no category has -/
  | uncategorised
  deriving DecidableEq, Repr

/-- The record of one descendant. -/
structure Attribution where
  opid : OpId
  /-- the map row that reached the descendant, and the two operations that it names -/
  map : Int
  dst : OpId
  clr : OpId
  smTag : Option String
  duration : Int
  outcome : Outcome
  deriving DecidableEq, Repr

/-- The time of one category, and how many descendants it comes from. -/
structure Bucket where
  name : String
  duration : Int := 0
  contributors : Nat := 0
  deriving DecidableEq, Repr

/-- Adds the time of one more descendant. -/
def Bucket.add (duration : Int) (bucket : Bucket) : Bucket :=
  { bucket with
    duration := addCapped bucket.duration duration
    contributors := bucket.contributors + 1 }

/-- Where the time of one operation went. -/
structure Breakdown where
  total : Span
  /-- one bucket for each category, in the order of the table -/
  buckets : List Bucket
  uncategorised : Int
  attributions : List Attribution
  deriving DecidableEq, Repr

namespace Breakdown

def bucket? (breakdown : Breakdown) (category : String) : Option Bucket :=
  breakdown.buckets.find? (·.name = category)

/-- The time of a category; nothing for a name that is no category. -/
def durationOf (breakdown : Breakdown) (category : String) : Int :=
  match breakdown.bucket? category with
  | some bucket => bucket.duration
  | none => 0

def pairs (breakdown : Breakdown) : List (String × Int) :=
  breakdown.buckets.map fun bucket ↦ (bucket.name, bucket.duration)

end Breakdown

/-- The state of an attribution in progress. -/
structure Tally where
  ledger : Ledger := {}
  buckets : List Bucket
  uncategorised : Int := 0
  attributions : List Attribution := []
  deriving DecidableEq, Repr

namespace Tally

/-- Empty buckets for the categories of a table. -/
def start (table : CategoryTable) : Tally :=
  { buckets := table.names.map fun name ↦ { name } }

/-- The tag of a descendant: its own, or the one of the row that reached it. -/
def tagOf (row : MapRow) (span : Span) : Option String := span.smTag.or row.smTag

/-- The tag of a descendant with the place of the category that has it, if one does. -/
def placeOf (table : CategoryTable) (row : MapRow) (span : Span) : Option (String × Nat) := do
  let tag ← tagOf row span
  let index ← table.classify tag
  return (tag, index)

def note (tally : Tally) (row : MapRow) (span : Span) (outcome : Outcome) : Tally :=
  { tally with
    attributions := tally.attributions ++
      [{ opid := row.src, map := row.id, dst := row.dst, clr := row.clr, smTag := tagOf row span,
         duration := span.duration, outcome }] }

def assign (table : CategoryTable) (tally : Tally) (row : MapRow) (span : Span) : Tally :=
  match placeOf table row span with
  | none =>
    { tally.note row span .uncategorised with
      uncategorised := addCapped tally.uncategorised span.duration }
  | some (tag, index) =>
    match tally.ledger.receive tag row with
    | (.counted, ledger) =>
      { tally.note row span (.counted (table.nameAt index)) with
        ledger
        buckets := tally.buckets.modify index (Bucket.add span.duration) }
    | (.duplicate matched, ledger) =>
      { tally.note row span (.duplicate (table.nameAt index) matched) with ledger }

/-- Takes in one visit of the descent; a descendant without a span has no time to attribute. -/
def see (table : CategoryTable) (tally : Tally) (visit : Visit) : Tally :=
  match visit.resolution with
  | .complete span => tally.assign table visit.row span
  | .incomplete _ => tally

end Tally

namespace Breakdown

/-- Attributes the visits of a descent from an operation with span `total`. -/
def ofVisits (table : CategoryTable) (total : Span) (visits : List Visit) : Breakdown :=
  let tally := visits.foldl (Tally.see table) (Tally.start table)
  { total, buckets := tally.buckets, uncategorised := tally.uncategorised,
    attributions := tally.attributions }

/-- Breaks down the time of operation `root`, whose span is `total`. Findings about descendants come
in the order of the descent. -/
def ofSpan (store : Store) (table : CategoryTable) (root : OpId) (total : Span) :
    StoreResult (Breakdown × Findings) := do
  let visits ← descend store root
  return (ofVisits table total visits, visits.filterMap (·.resolution.finding?))

/-- Breaks down the time of operation `root`. An operation without a complete span has no
breakdown, and the finding says why. -/
def ofOperation (store : Store) (table : CategoryTable) (root : OpId) :
    StoreResult (Option Breakdown × Findings) := do
  match ← store.resolve root with
  | .incomplete finding => return (none, [finding])
  | .complete total =>
    let (breakdown, findings) ← ofSpan store table root total
    return (some breakdown, findings)

/-- Answers a request for the breakdown of operation `root`, which fails if there is none. -/
def extract (store : Store) (table : CategoryTable) (root : OpId) :
    RequestResult (Breakdown × Findings) := do
  match ← (store.resolve root).lift with
  | .incomplete finding => throw (.insufficientData (.noSpan root finding))
  | .complete total => (ofSpan store table root total).lift

end Breakdown

end OpTrace

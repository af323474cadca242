import OpTrace.Event.Basic

/-!
# The ledger of attributed time

One piece of work can show under several map rows when it is cleared by an operation other than
the one that started it. The ledger remembers, for each sub-module tag, on which operations time
was booked. A child is counted if neither its clearance operation nor its destination is booked
for its tag, and then its clearance operation is booked; otherwise it is a duplicate, and the child
itself is booked, so that its own children under the same tag are duplicates as well.
-/

namespace OpTrace

/-- A booking: time of `opid` is attributed to `smTag`. -/
structure LedgerKey where
  smTag : String
  opid : OpId
  deriving DecidableEq, Repr

/-- What the ledger says of a child. -/
inductive Admission where
  | counted
  /-- the time was booked before, under this key -/
  | duplicate (matched : LedgerKey)
  deriving DecidableEq, Repr

/-- The bookings so far, the latest first. -/
structure Ledger where
  booked : List LedgerKey := []
  deriving DecidableEq, Repr

namespace Ledger

def contains (ledger : Ledger) (smTag : String) (opid : OpId) : Bool :=
  decide (⟨smTag, opid⟩ ∈ ledger.booked)

def book (ledger : Ledger) (smTag : String) (opid : OpId) : Ledger :=
  ⟨⟨smTag, opid⟩ :: ledger.booked⟩

/-- The key under which the child of a map row was booked before. The clearance operation is
looked up first. -/
def match? (ledger : Ledger) (smTag : String) (row : MapRow) : Option LedgerKey :=
  if ledger.contains smTag row.clr then some ⟨smTag, row.clr⟩
  else if ledger.contains smTag row.dst then some ⟨smTag, row.dst⟩
  else none

/-- Decides on the child of a map row and books it. -/
def receive (ledger : Ledger) (smTag : String) (row : MapRow) : Admission × Ledger :=
  match ledger.match? smTag row with
  | some key => (.duplicate key, ledger.book smTag row.src)
  | none => (.counted, ledger.book smTag row.clr)

@[simp] theorem contains_empty (smTag : String) (opid : OpId) :
    (Ledger.mk []).contains smTag opid = false := by
  simp [contains]

@[simp] theorem contains_book {ledger : Ledger} {smTag other : String} {opid id : OpId} :
    (ledger.book smTag opid).contains other id = true ↔
      (other = smTag ∧ id = opid) ∨ ledger.contains other id = true := by
  simp [contains, book]

end Ledger

end OpTrace

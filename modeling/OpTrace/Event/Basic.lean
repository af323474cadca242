import OpTrace.Duration

/-!
# Counter events

A trace is made of three relations. A state event moves one operation into its first or its last
state; an attribute event notes a name and a value on an operation; a map entry says that one
operation (the source) was started by another (the destination) and is waited for by a third (the
clearance operation, often the same as the destination).

The rows of all three share a header. Rows are ordered by the header's `id`, which counts up in
the order of recording.
-/

namespace OpTrace

/-- The number that joins all rows of one operation. -/
abbrev OpId := Int

/-- The states that an operation is seen to enter. -/
inductive StateType where
  | init
  | finish
  deriving DecidableEq, Repr

namespace StateType

def name : StateType → String
  | init => "init"
  | finish => "finish"

def ofName? (word : String) : Option StateType :=
  if word = "init" then some init else if word = "finish" then some finish else none

@[simp] theorem ofName?_name (s : StateType) : ofName? s.name = some s := by
  cases s <;> decide

def unknownMessage (word : String) : String := s!"unknown state_type '{word}'"

end StateType

/-- The columns that all three relations have. -/
structure Header where
  /-- position in the order of recording -/
  id : Int
  /-- process that recorded the row -/
  pid : Int
  time : Time
  /-- part of the stack that recorded the row -/
  component : String
  /-- tag of the function in which the row was recorded -/
  fnTag : String
  /-- tag of the sub-module that the time belongs to -/
  smTag : Option String
  entityType : String
  deriving DecidableEq, Repr

/-- A row of the relation of states. -/
structure StateRow extends Header where
  opid : OpId
  state : StateType
  deriving DecidableEq, Repr

/-- A row of the relation of attributes. -/
structure AttributeRow extends Header where
  opid : OpId
  name : String
  value : String
  deriving DecidableEq, Repr

/-- A row of the relation of maps: `src` is a child of `dst` and is cleared under `clr`. -/
structure MapRow extends Header where
  mapName : String
  src : OpId
  dst : OpId
  clr : OpId
  deriving DecidableEq, Repr

/-- Rows that have a header. -/
class Row (ρ : Type) where
  header : ρ → Header

instance : Row StateRow := ⟨StateRow.toHeader⟩
instance : Row AttributeRow := ⟨AttributeRow.toHeader⟩
instance : Row MapRow := ⟨MapRow.toHeader⟩

/-- The row's place in the order of recording. -/
def rowId {ρ : Type} [Row ρ] (row : ρ) : Int := (Row.header row).id

@[simp] theorem rowId_state (row : StateRow) : rowId row = row.id := rfl
@[simp] theorem rowId_attribute (row : AttributeRow) : rowId row = row.id := rfl
@[simp] theorem rowId_map (row : MapRow) : rowId row = row.id := rfl

end OpTrace

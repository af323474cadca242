import OpTrace.DatabaseFile.Bytes
import OpTrace.Store.Cell

/-!
# Records

A record holds the cells of one row. Its head lists a code per cell, which tells the kind of the
value and how many bytes it takes; the values follow in the same order.
-/

namespace OpTrace

namespace DatabaseFile

/-- How many bytes a value takes, by its code. -/
def widthOf (code : Nat) : Nat :=
  match code with
  | 0 | 8 | 9 | 10 | 11 => 0
  | 1 => 1
  | 2 => 2
  | 3 => 3
  | 4 => 4
  | 5 => 6
  | 6 | 7 => 8
  | code => (code - 12) / 2

def cellOf? (code : Nat) (value : ByteArray) : Option Cell :=
  if code = 0 then some .null
  else if code = 8 then some (.integer 0)
  else if code = 9 then some (.integer 1)
  else if code = 7 then do
    return .real ⟨(← fixedNumber? value 0 8).toUInt64⟩
  else if code < 7 then do
    return .integer (signed value.size (← fixedNumber? value 0 value.size))
  else if code < 12 then none
  else if code % 2 = 0 then some (.blob value.toList)
  else some (.text (Utf8.decode value.toList))

/-- The codes in a head that ends at `stop`; there are at most as many as it has bytes. -/
def codesFrom? (record : ByteArray) (stop : Nat) : (most place : Nat) → Option (List Nat)
  | 0, _ => some []
  | most + 1, place =>
    if stop ≤ place then some []
    else do
      let (code, next) ← varyingNumber? record place
      return code :: (← codesFrom? record stop most next)

/-- The cells of the codes, whose values stand from a place on. -/
def cellsFrom? (record : ByteArray) : List Nat → (place : Nat) → Option (List Cell)
  | [], _ => some []
  | code :: codes, place => do
    let cell ← cellOf? code (← part? record place (widthOf code))
    return cell :: (← cellsFrom? record codes (place + widthOf code))

def cells? (record : ByteArray) : Option (List Cell) := do
  let (stop, place) ← varyingNumber? record 0
  cellsFrom? record (← codesFrom? record stop stop place) stop

end DatabaseFile

end OpTrace

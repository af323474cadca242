/-!
# Numbers in bytes

The numbers of a database file stand with their most significant byte first, either in a fixed
number of bytes or in as many as they need. In the second form every byte but the last has its top
bit set and adds seven bits; a ninth byte is always the last and adds all its eight bits.
-/

namespace OpTrace

namespace DatabaseFile

def fixedNumber? (bytes : ByteArray) (place : Nat) : (count : Nat) → Option Nat
  | 0 => some 0
  | count + 1 => do
    let high ← fixedNumber? bytes place count
    let low ← bytes[place + count]?
    return 256 * high + low.toNat

/-- The number in `count` bytes from a place on. Behind the end there are zeros. -/
def paddedNumber (bytes : ByteArray) (place : Nat) : (count : Nat) → Nat
  | 0 => 0
  | count + 1 => 256 * paddedNumber bytes place count + (bytes[place + count]?.getD 0).toNat

/-- A number of a given count of bytes as a signed number. -/
def signed (count number : Nat) : Int :=
  if number < Nat.pow 2 (8 * count - 1) then number else number - Int.pow 2 (8 * count)

/-- Reads on in a number of varying length, of which at most `left` more bytes precede the last. -/
def varyingFrom? (bytes : ByteArray) : (left : Nat) → (number place : Nat) → Option (Nat × Nat)
  | 0, number, place => do
    let byte ← bytes[place]?
    return (256 * number + byte.toNat, place + 1)
  | left + 1, number, place => do
    let byte ← bytes[place]?
    if byte < 128 then return (128 * number + byte.toNat, place + 1)
    else varyingFrom? bytes left (128 * number + (byte.toNat - 128)) (place + 1)

/-- The number of varying length at a place, and the place behind it. -/
def varyingNumber? (bytes : ByteArray) (place : Nat) : Option (Nat × Nat) :=
  varyingFrom? bytes 8 0 place

/-- The bytes from a place on, if there are so many. -/
def part? (bytes : ByteArray) (place count : Nat) : Option ByteArray :=
  if place + count ≤ bytes.size then some (bytes.extract place (place + count)) else none

end DatabaseFile

end OpTrace

import OpTrace.DatabaseFile.Record

/-!
# Table trees

A database file is a row of pages of one size, of which the first one begins with the head of the
file. The rows of a table stand in the leaves of a tree of
pages, in the order of their row numbers. A record that is too long for its page goes on in a chain
of pages of its own.
-/

namespace OpTrace

namespace DatabaseFile

/-- The pages of a database file. -/
structure Pages where
  bytes : ByteArray
  size : Nat
  /-- how many bytes of a page are in use -/
  usable : Nat

/-- A row: its number and its cells. -/
structure Row where
  number : Int
  cells : List Cell

namespace Pages

/-- The number of pages. The last one may be incomplete. -/
def count (pages : Pages) : Nat := (pages.bytes.size + pages.size - 1) / pages.size

/-- The bytes of a page; pages count from one. What is missing of the last page is zero. -/
def page? (pages : Pages) (number : Nat) : Option ByteArray :=
  if number = 0 ∨ pages.count < number then none
  else
    let bytes := pages.bytes.extract ((number - 1) * pages.size) (number * pages.size)
    some (bytes ++ ByteArray.mk (Array.replicate (pages.size - bytes.size) 0))

/-- The rest of a record from a chain of pages, of which at most `most` are followed. -/
def chain? (pages : Pages) : (most number left : Nat) → Option ByteArray
  | _, _, 0 => some .empty
  | 0, _, _ => none
  | most + 1, number, left + 1 => do
    let page ← pages.page? number
    let next ← fixedNumber? page 0 4
    let here := min (left + 1) (pages.usable - 4)
    let first ← part? page 4 here
    let rest ← chain? pages most next (left + 1 - here)
    return first ++ rest

/-- How many of a record's bytes stand in the page of its row. -/
def localLength (pages : Pages) (length : Nat) : Nat :=
  let most := pages.usable - 35
  let least := (pages.usable - 12) * 32 / 255 - 23
  if length ≤ most then length
  else
    let fitting := least + (length - least) % (pages.usable - 4)
    if fitting ≤ most then fitting else least

def row? (pages : Pages) (page : ByteArray) (place : Nat) : Option Row := do
  let (length, place) ← varyingNumber? page place
  let (number, place) ← varyingNumber? page place
  let here := pages.localLength length
  let first ← part? page place here
  let rest ←
    if here = length then some .empty
    else do
      let next ← fixedNumber? page (place + here) 4
      pages.chain? pages.count next (length - here)
  return { number := signed 8 number, cells := ← cells? (first ++ rest) }

def headLength : Nat := 100

/-- The rows of the tree below a page that has at most `levels` levels. -/
def rowsBelow? (pages : Pages) : (levels number : Nat) → Option (List Row)
  | 0, _ => none
  | levels + 1, number => do
    let page ← pages.page? number
    let start := if number = 1 then headLength else 0
    let kind ← fixedNumber? page start 1
    let cellCount ← fixedNumber? page (start + 3) 2
    let places (from_ : Nat) : Option (List Nat) :=
      (List.range cellCount).mapM fun index ↦ fixedNumber? page (from_ + 2 * index) 2
    if kind = 13 then (← places (start + 8)).mapM (pages.row? page)
    else if kind = 5 then do
      let children ← (← places (start + 12)).mapM fun place ↦ fixedNumber? page place 4
      let last ← fixedNumber? page (start + 8) 4
      return (← (children ++ [last]).mapM (rowsBelow? pages levels)).flatten
    else none

def levelBound : Nat := 20

def rows? (pages : Pages) (root : Nat) : Option (List Row) := pages.rowsBelow? levelBound root

end Pages

end DatabaseFile

end OpTrace

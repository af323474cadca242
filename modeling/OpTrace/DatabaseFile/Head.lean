import OpTrace.DatabaseFile.Error
import OpTrace.DatabaseFile.Tree

/-!
# Heads of database files

A database file begins with a head, which tells the length of its pages, how many there are, and
which format the list of tables has. A file that ends inside its head is read as if zeros followed.
-/

namespace OpTrace

namespace DatabaseFile

/-- The words with which every database file begins. -/
def signature : List UInt8 := "SQLite format 3".toUTF8.toList ++ [0]

def isSigned (bytes : ByteArray) : Bool := (bytes.extract 0 signature.length).toList == signature

/-- The latest way of reading that is known. It expects a log of changes beside the file. -/
def latestReading : Nat := 2

/-- Is there to be a log of changes beside the file? -/
def isLogged (bytes : ByteArray) : Bool :=
  isSigned bytes && paddedNumber bytes 19 1 == latestReading

/-- The parts of a page, in units of a 255th, that cells fill at most or at least. There is no other
choice. -/
def fractions : Nat := 256 * (256 * 64 + 32) + 32

def pageSizes : List Nat := (List.range 8).map fun k ↦ Nat.pow 2 (9 + k)

/-- The least number of bytes of a page that are in use. -/
def usableBound : Nat := 480

def latestFormat : Nat := 4

/-- The pages of a file that has more than one byte. A number of pages is given by the head if it
was written together with the rest of the head; then there have to be so many. -/
def Pages.ofBytes (bytes : ByteArray) : Except DatabaseError Pages :=
  let number := paddedNumber bytes
  let size := if number 16 2 = 1 then Nat.pow 2 16 else number 16 2
  let pages : Pages := { bytes, size, usable := size - number 20 1 }
  if ¬ isSigned bytes ∨ latestReading < number 19 1 ∨ number 21 3 ≠ fractions ∨
      size ∉ pageSizes then
    .error .notDatabase
  else if number 24 4 = number 92 4 ∧ pages.count < number 28 4 then .error .damaged
  else if pages.usable < usableBound then .error .notDatabase
  else if latestFormat < number 47 1 then .error .unsupportedFormat
  else .ok pages

end DatabaseFile

end OpTrace

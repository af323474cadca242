import OpTrace.Decimal.Text
import OpTrace.Store.Basic
import OpTrace.Store.Letter

/-!
# Cells of a database

A cell holds a value of one of five kinds, whatever its column was declared for. Reading a column
asks for a kind and fails on any other. Comparing goes across kinds: an absent value comes first,
then the numbers by size, then the texts, then the bytes.
-/

namespace OpTrace

/-- The value of one cell. -/
inductive Cell where
  | null
  | integer (n : Int)
  | real (x : Binary64)
  | text (s : String)
  | blob (bytes : List UInt8)
  deriving DecidableEq

namespace Cell

def kind : Cell → CellKind
  | null => .null
  | integer _ => .integer
  | real _ => .real
  | text _ => .text
  | blob _ => .blob

/-- Reads a whole number from column `column`, the one at place `index`. -/
def readInteger (index : Nat) (column : String) : Cell → StoreResult Int
  | integer n => .ok n
  | cell => .error (.columnType cell.kind index column)

def readText (index : Nat) (column : String) : Cell → StoreResult String
  | text s => .ok s
  | cell => .error (.columnType cell.kind index column)

def readOptionalText (index : Nat) (column : String) : Cell → StoreResult (Option String)
  | null => .ok none
  | text s => .ok (some s)
  | cell => .error (.columnType cell.kind index column)

/-- Any value as text: nothing for an absent one, the decimal form of a number, the characters
that bytes stand for. -/
def display : Cell → String
  | null => ""
  | integer n => toString n
  | real x => x.plain
  | text s => s
  | blob bytes => Utf8.decode bytes

/-- Is the value the number `n`? Texts are no numbers. -/
def isNumber (n : Int) : Cell → Bool
  | integer m => m == n
  | real x => x.equalsInt n
  | _ => false

/-- A size that both whole and binary numbers have, on a scale fine enough for both. -/
def scaled : Cell → Int
  | integer n => n * Int.pow 2 1074
  | real x =>
    (if x.isNegative then -(x.significand : Int) else x.significand) *
      Int.pow 2 (x.exponent + 1074).toNat
  | _ => 0

/-- The place of a kind in the order of values. -/
def rank : Cell → Nat
  | null => 0
  | integer _ => 1
  | real _ => 1
  | text _ => 2
  | blob _ => 3

def compare (a b : Cell) : Ordering :=
  match a, b with
  | text s, text t => Ord.compare s t
  | blob s, blob t => Ord.compare (s.map UInt8.toNat) (t.map UInt8.toNat)
  | a, b => (Ord.compare a.rank b.rank).then (Ord.compare a.scaled b.scaled)

def le (a b : Cell) : Bool := a.compare b != .gt

/-- The letters of a value. An absent value has none to look at, and a binary number is taken in its
general form. -/
def letters? : Cell → Option (List Letter)
  | null => none
  | integer n => some (Letter.ofText (toString n))
  | real x => some (Letter.ofText x.general)
  | text s => some (Letter.ofText s)
  | blob bytes => some (Letter.ofBytes bytes)

def isMatched (pattern : TagPattern) (cell : Cell) : Bool :=
  cell.letters?.any pattern.matchesLetters

end Cell

end OpTrace

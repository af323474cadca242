import OpTrace.Store.Pattern
import OpTrace.Text.Utf8

/-!
# Letters of stored values

A database matches a pattern against a stored value letter by letter, and a letter is a number. The
letters of a text are the numbers of its characters. The letters of bytes are read without asking
whether the bytes are well formed: a lead byte takes all continuation bytes behind it, and each
other byte is a letter of its own. In both cases a zero ends the letters, and a few numbers that
should not occur are replaced by that of U+FFFD.
-/

namespace OpTrace

/-- A letter of a stored value. -/
abbrev Letter := Nat

namespace Letter

/-- The letter of a number. Surrogates and the last two numbers of the first plane are replaced. -/
def mend (n : Nat) : Letter :=
  if 0xD800 ≤ n ∧ n ≤ 0xDFFF ∨ n = 0xFFFE ∨ n = 0xFFFF then Utf8.replacement.toNat else n

def ofText (text : String) : List Letter :=
  (text.toList.takeWhile (· ≠ '\x00')).map fun c ↦ mend c.toNat

/-- The bits that a lead byte contributes. The two highest bytes contribute none. -/
def payload (b : UInt8) : Nat :=
  if b < 0xE0 then b.toNat - 0xC0
  else if b < 0xF0 then b.toNat - 0xE0
  else if b < 0xF8 then b.toNat - 0xF0
  else if b < 0xFC then b.toNat - 0xF8
  else if b < 0xFE then b.toNat - 0xFC
  else 0

/-- The number with the bits of one more continuation byte. Numbers have 32 bits. -/
def extend (n : Nat) (b : UInt8) : Nat := (64 * n + (b.toNat - 0x80)) % Nat.pow 2 32

/-- The letter of a number that a lead byte and continuation bytes give. A number for which one byte
would do is replaced. -/
def ofSequence (n : Nat) : Letter := if n < 0x80 then Utf8.replacement.toNat else mend n

/-- The letters of bytes behind a lead byte and continuation bytes, which give a number so far. -/
def ofBytesFrom (current : Option Nat) : List UInt8 → List Letter
  | [] => (current.map ofSequence).toList
  | b :: bytes =>
    match current, Utf8.isContinuation b with
    | some n, true => ofBytesFrom (some (extend n b)) bytes
    | current, _ =>
      (current.map ofSequence).toList ++
        if b = 0 then []
        else if b < 0xC0 then b.toNat :: ofBytesFrom none bytes
        else ofBytesFrom (some (payload b)) bytes

def ofBytes (bytes : List UInt8) : List Letter := ofBytesFrom none bytes

/-- The letter in lower case, if it is one of the ASCII alphabet. -/
def lower (letter : Letter) : Letter :=
  if 'A'.toNat ≤ letter ∧ letter ≤ 'Z'.toNat then letter + 32 else letter

/-- The item that a letter of a pattern stands for. -/
def toGlyph (letter : Letter) : Glyph Letter :=
  if letter = '%'.toNat then .run else if letter = '_'.toNat then .any else .lit (lower letter)

end Letter

def TagPattern.matchesLetters (pattern : TagPattern) (letters : List Letter) : Bool :=
  Glyph.accept ((Letter.ofText pattern.text).map Letter.toGlyph) (letters.map Letter.lower)

end OpTrace

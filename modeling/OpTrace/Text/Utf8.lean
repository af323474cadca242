/-!
# Bytes as text

Bytes are read as UTF-8. Where they are not well formed, the longest part that could have begun a
character is replaced by one U+FFFD, and reading goes on behind it, so that bytes from a foreign
source always give a text.
-/

namespace OpTrace

namespace Utf8

/-- The sign that stands for bytes that are no character. -/
def replacement : Char := '\uFFFD'

def isContinuation (b : UInt8) : Bool := 0x80 ≤ b && b ≤ 0xBF

/-- The character of a lead byte's payload and the continuation bytes behind it. -/
def assemble (payload : Nat) (continuation : List UInt8) : Char :=
  Char.ofNat (continuation.foldl (fun n b ↦ 64 * n + (b.toNat - 0x80)) payload)

/-- May `b` follow the lead byte `a`? Some lead bytes allow only a part of the continuation bytes:
longer forms than needed, surrogates and numbers above U+10FFFF are ruled out here. -/
def allowsSecond (a b : UInt8) : Bool :=
  if a = 0xE0 then 0xA0 ≤ b && b ≤ 0xBF
  else if a = 0xED then 0x80 ≤ b && b ≤ 0x9F
  else if a = 0xF0 then 0x90 ≤ b && b ≤ 0xBF
  else if a = 0xF4 then 0x80 ≤ b && b ≤ 0x8F
  else isContinuation b

/-- How many continuation bytes a lead byte asks for; `none` for a byte that leads nothing. -/
def tailLength (a : UInt8) : Option Nat :=
  if a < 0x80 then some 0
  else if 0xC2 ≤ a && a ≤ 0xDF then some 1
  else if 0xE0 ≤ a && a ≤ 0xEF then some 2
  else if 0xF0 ≤ a && a ≤ 0xF4 then some 3
  else none

/-- A character that is being read: its lead byte, the continuation bytes so far, and how many are
still to come. -/
structure Unfinished where
  lead : UInt8
  seen : List UInt8
  missing : Nat

/-- May `b` be the next byte of the character? -/
def Unfinished.accepts (p : Unfinished) (b : UInt8) : Bool :=
  if p.seen.isEmpty then allowsSecond p.lead b else isContinuation b

def payload (a : UInt8) : Nat :=
  if a < 0x80 then a.toNat else if a < 0xE0 then a.toNat - 0xC0
  else if a < 0xF0 then a.toNat - 0xE0 else a.toNat - 0xF0

def start (b : UInt8) : List Char × Option Unfinished :=
  match tailLength b with
  | none => ([replacement], none)
  | some 0 => ([Char.ofNat b.toNat], none)
  | some (n + 1) => ([], some ⟨b, [], n + 1⟩)

/-- Reads one more byte: the characters that are now complete, and the one that is being read. -/
def step (current : Option Unfinished) (b : UInt8) : List Char × Option Unfinished :=
  match current with
  | none => start b
  | some p =>
    if p.accepts b then
      if p.missing = 1 then ([assemble (payload p.lead) (p.seen ++ [b])], none)
      else ([], some { p with seen := p.seen ++ [b], missing := p.missing - 1 })
    else
      let (chars, next) := start b
      (replacement :: chars, next)

/-- The characters of all bytes behind a character that is being read. -/
def decodeFrom : Option Unfinished → List UInt8 → List Char
  | none, [] => []
  | some _, [] => [replacement]
  | current, b :: bytes =>
    let (chars, next) := step current b
    chars ++ decodeFrom next bytes

def decode (bytes : List UInt8) : String := String.ofList (decodeFrom none bytes)

end Utf8

end OpTrace

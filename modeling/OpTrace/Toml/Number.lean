import OpTrace.Toml.Fault

/-!
# Numbers

Whole numbers are decimal with an optional sign, or hexadecimal, octal or binary behind a mark.
Other numbers have a fraction, an exponent, or both. Single underscores may separate digits. A whole
number has to fit a signed word of 64 bits, and another number must not be so large that it would
count as infinite, unless it is negative.
-/

namespace OpTrace

namespace Toml

def digitValue (c : Char) : Nat :=
  if c.isDigit then c.toNat - '0'.toNat else c.toLower.toNat - 'a'.toNat + 10

def numberOfDigits (base : Nat) (digits : List Char) : Nat :=
  digits.foldl (fun n c ↦ base * n + digitValue c) 0

def isDigitOf (base : Nat) (c : Char) : Bool :=
  (c.isDigit || ('a' ≤ c.toLower && c.toLower ≤ 'f')) && digitValue c < base

def Fault.noDigit (place : List Char) : Fault :=
  ((Fault.atPlace place).expecting "digit").final

/-- Reads the digits behind the first one, without the underscores between them. -/
def digitsFrom (isDigit : Char → Bool) : List Char → Reading (List Char × List Char)
  | [] => .ok ([], [])
  | '_' :: rest =>
    match rest with
    | [] => .error (.noDigit [])
    | d :: more =>
      if isDigit d then do
        let (digits, left) ← digitsFrom isDigit more
        return (d :: digits, left)
      else .error (.noDigit (d :: more))
  | d :: rest =>
    if isDigit d then do
      let (digits, left) ← digitsFrom isDigit rest
      return (d :: digits, left)
    else .ok ([], d :: rest)

def readDigits (isDigit : Char → Bool) : List Char → Reading (List Char × List Char)
  | d :: rest =>
    if isDigit d then do
      let (digits, left) ← digitsFrom isDigit rest
      return (d :: digits, left)
    else .error (.atPlace (d :: rest))
  | [] => .error (.atPlace [])

/-- Reads decimal digits. Behind a zero in front no digit is read. -/
def readPlainDigits (text : List Char) : Reading (List Char × List Char) :=
  within .integer <|
    match text with
    | '0' :: rest => .ok (['0'], rest)
    | text => readDigits Char.isDigit text

/-- The sign in front of a number, and what follows it. -/
def splitSign : List Char → Bool × List Char
  | '-' :: rest => (true, rest)
  | '+' :: rest => (false, rest)
  | rest => (false, rest)

/-- A whole number that fits a signed word of 64 bits. -/
def word (place : List Char) (n : Int) : Reading Int :=
  if n < -Int.pow 2 63 then .error (Fault.atPlace place (some .tooSmall)).final
  else if Int.pow 2 63 ≤ n then .error (Fault.atPlace place (some .tooLarge)).final
  else .ok n

def readMarked (base : Nat) (construct : Construct) (place text : List Char) :
    Reading (Int × List Char) := do
  let (digits, rest) ← final (within construct (readDigits (isDigitOf base) text))
  return (← word place (numberOfDigits base digits), rest)

def readInteger (text : List Char) : Reading (Int × List Char) :=
  match text with
  | '0' :: 'x' :: digits => readMarked 16 .hexadecimal text digits
  | '0' :: 'o' :: digits => readMarked 8 .octal text digits
  | '0' :: 'b' :: digits => readMarked 2 .binary text digits
  | text => do
    let (isNegative, size) := splitSign text
    let (digits, rest) ← readPlainDigits size
    let n := numberOfDigits 10 digits
    return (← word text (if isNegative then -(n : Int) else n), rest)

/-- Would `mantissa * 10 ^ exponent` be rounded to infinity as a binary number of 64 bits? Far from
the bound the number of digits decides. -/
def isHuge (mantissa : Nat) (exponent : Int) : Bool :=
  let places : Int := (Nat.toDigits 10 mantissa).length + exponent
  let bound := Nat.pow 2 1024 - Nat.pow 2 970
  if mantissa = 0 ∨ places < 300 then false
  else if 320 < places then true
  else if 0 ≤ exponent then bound ≤ mantissa * Nat.pow 10 exponent.toNat
  else bound * Nat.pow 10 (-exponent).toNat ≤ mantissa

/-- Is `mantissa * 10 ^ exponent` so small that it counts as zero? -/
def isTiny (mantissa : Nat) (exponent : Int) : Bool :=
  mantissa = 0 || (Nat.toDigits 10 mantissa).length + exponent < -400

/-- The binary number nearest to `mantissa * 10 ^ exponent`. -/
def binary (isNegative : Bool) (mantissa : Nat) (exponent : Int) : Binary64 :=
  let size :=
    if isTiny mantissa exponent then 0.0
    else if isHuge mantissa exponent then 1.0 / 0.0
    else Float.ofScientific mantissa (exponent < 0) exponent.natAbs
  .ofFloat (if isNegative then -size else size)

def readExponent (text : List Char) : Reading (Int × List Char) := do
  let (isNegative, size) := splitSign text
  let (digits, rest) ← final (readDigits Char.isDigit size)
  let n := numberOfDigits 10 digits
  return (if isNegative then -(n : Int) else n, rest)

/-- Reads the fraction and the exponent that may follow a point, as the digits of the fraction and
the exponent. -/
def readFraction (text : List Char) : Reading ((List Char × Int) × List Char) := do
  let (places, rest) ← (readDigits Char.isDigit text).mapError fun fault ↦
    (fault.expecting "digit").final
  match rest with
  | 'e' :: more | 'E' :: more => do
    let (exponent, rest) ← readExponent more
    return ((places, exponent), rest)
  | rest => return ((places, 0), rest)

/-- Reads what makes a number no whole one: a fraction, an exponent, or both. -/
def readScale? : List Char → Reading (Option ((List Char × Int) × List Char))
  | '.' :: rest => (readFraction rest).map some
  | 'e' :: rest | 'E' :: rest => do
    let (exponent, rest) ← readExponent rest
    return some (([], exponent), rest)
  | _ => .ok none

/-- Reads infinity or the value that is no number, behind the sign. -/
def readSpecial? (isNegative : Bool) : List Char → Option (Binary64 × List Char)
  | 'i' :: 'n' :: 'f' :: rest =>
    some (.ofFloat (if isNegative then -1.0 / 0.0 else 1.0 / 0.0), rest)
  | 'n' :: 'a' :: 'n' :: rest => some (.ofFloat (0.0 / 0.0), rest)
  | _ => none

def readNumber? (text : List Char) : Reading (Option (Binary64 × List Char)) :=
  within .float <|
    let (isNegative, size) := splitSign text
    match readPlainDigits size with
    | .error fault =>
      if fault.isFinal then .error fault else .ok (readSpecial? isNegative size)
    | .ok (whole, rest) => do
      match ← readScale? rest with
      | none => return none
      | some ((places, exponent), rest) =>
        let mantissa := numberOfDigits 10 (whole ++ places)
        let exponent := exponent - places.length
        if isHuge mantissa exponent ∧ ¬ isNegative then throw (Fault.atPlace text).final
        else return some (binary isNegative mantissa exponent, rest)

end Toml

end OpTrace

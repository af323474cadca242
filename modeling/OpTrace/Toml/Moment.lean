import OpTrace.Toml.Number

/-!
# Dates and times of day

A date may be followed by a time of day, and that by a distance from universal time; a time of day
may also stand alone. Four digits and a hyphen begin a date, an hour and a colon a time.
-/

namespace OpTrace

namespace Toml

def fixedDigits? (count : Nat) (text : List Char) : Option (Nat × List Char) :=
  let digits := text.take count
  if digits.length = count ∧ digits.all Char.isDigit then
    some (numberOfDigits 10 digits, text.drop count)
  else none

def readPair (least greatest : Nat) (text : List Char) : Reading (Nat × List Char) :=
  match fixedDigits? 2 text with
  | none => .error (Fault.atPlace text).final
  | some (n, rest) =>
    if least ≤ n ∧ n ≤ greatest then .ok (n, rest)
    else .error (Fault.atPlace text (some .outOfRange)).final

def readMark (mark : Char) : List Char → Reading (List Char)
  | c :: rest => if c = mark then .ok rest else .error (Fault.atPlace (c :: rest)).final
  | [] => .error (Fault.atPlace []).final

def daysOf (year month : Nat) : Nat :=
  if month = 2 then
    if year % 4 = 0 ∧ (year % 100 ≠ 0 ∨ year % 400 = 0) then 29 else 28
  else if month ∈ [4, 6, 9, 11] then 30
  else 31

def skipDate? (text : List Char) : Reading (Option (List Char)) :=
  match fixedDigits? 4 text with
  | some (year, '-' :: rest) => do
    let (month, rest) ← readPair 1 12 rest
    let dayPlace ← readMark '-' rest
    let (day, rest) ← readPair 1 31 dayPlace
    if day ≤ daysOf year month then return some rest
    else throw (Fault.atPlace dayPlace (some .outOfRange)).final
  | _ => .ok none

def skipSecondFraction : List Char → List Char
  | '.' :: rest => if rest.head?.any Char.isDigit then rest.dropWhile Char.isDigit else '.' :: rest
  | rest => rest

/-- Passes over a time of day, if there is one. A minute may have a second number 60. -/
def skipTime? (text : List Char) : Reading (Option (List Char)) :=
  match fixedDigits? 2 text with
  | some (hour, ':' :: rest) =>
    if hour < 24 then do
      let (_, rest) ← readPair 0 59 rest
      let (_, rest) ← readPair 0 60 (← readMark ':' rest)
      return some (skipSecondFraction rest)
    else .ok none
  | _ => .ok none

def skipOffset (text : List Char) : Reading (List Char) :=
  within .offset <|
    match text with
    | 'Z' :: rest | 'z' :: rest => .ok rest
    | '+' :: rest | '-' :: rest => do
      let (_, rest) ← readPair 0 23 rest
      let (_, rest) ← readPair 0 59 (← readMark ':' rest)
      return rest
    | text => .ok text

def skipTimeOfDate (text : List Char) : Reading (List Char) :=
  match text with
  | c :: rest =>
    if c = 'T' ∨ c = 't' ∨ c = ' ' then do
      match ← skipTime? rest with
      | some rest => skipOffset rest
      | none => return text
    else .ok text
  | [] => .ok text

/-- Passes over a date, a time of day, or both, if there is any. -/
def skipMoment? (text : List Char) : Reading (Option (List Char)) := do
  match ← within .moment (skipDate? text) with
  | some rest => return some (← within .moment (skipTimeOfDate rest))
  | none => within .time (skipTime? text)

end Toml

end OpTrace

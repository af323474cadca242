import OpTrace.Decimal.Text
import OpTrace.Json.Basic

/-!
# Writing documents

A document is written on one line (`Json.compact`) or over many (`Json.pretty`), where each item
stands on a line of its own, two blanks deeper than the brackets around it. Empty brackets stay
on one line. Texts are written as they are but for quotes, backslashes and control characters.
-/

namespace OpTrace

namespace Json

/-- The two hexadecimal digits of a number below 256. -/
def hexByte (n : Nat) : List Char := [Nat.digitChar (n / 16), Nat.digitChar (n % 16)]

def escapeChar (c : Char) : List Char :=
  if c = '"' then ['\\', '"']
  else if c = '\\' then ['\\', '\\']
  else if c = '\n' then ['\\', 'n']
  else if c = '\r' then ['\\', 'r']
  else if c = '\t' then ['\\', 't']
  else if c.toNat = 8 then ['\\', 'b']
  else if c.toNat = 12 then ['\\', 'f']
  else if c.toNat < 32 then ['\\', 'u', '0', '0'] ++ hexByte c.toNat
  else [c]

def quoted (s : String) : String := String.ofList ('"' :: s.toList.flatMap escapeChar ++ ['"'])

mutual

/-- The document on one line, without blanks. -/
def compact : Json → String
  | null => "null"
  | bool b => if b then "true" else "false"
  | int n => toString n
  | real x => x.scientific
  | str s => quoted s
  | arr items => "[" ++ ",".intercalate (compactItems items) ++ "]"
  | obj fields => "\x7b" ++ ",".intercalate (compactFields fields) ++ "\x7d"

def compactItems : List Json → List String
  | [] => []
  | item :: items => item.compact :: compactItems items

def compactFields : List (String × Json) → List String
  | [] => []
  | (name, value) :: fields => (quoted name ++ ":" ++ value.compact) :: compactFields fields

end

/-- Brackets around items that each stand on a line of their own. -/
def bracketed (opening closing : String) (depth : Nat) (items : List String) : String :=
  if items.isEmpty then opening ++ closing
  else
    let inner := "\n" ++ String.ofList (List.replicate (2 * depth + 2) ' ')
    let outer := "\n" ++ String.ofList (List.replicate (2 * depth) ' ')
    opening ++ inner ++ ("," ++ inner).intercalate items ++ outer ++ closing

mutual

/-- The document over many lines, where its brackets stand `depth` levels deep. -/
def prettyAt (depth : Nat) : Json → String
  | arr items => bracketed "[" "]" depth (prettyItems (depth + 1) items)
  | obj fields => bracketed "\x7b" "\x7d" depth (prettyFields (depth + 1) fields)
  | null => "null"
  | bool b => if b then "true" else "false"
  | int n => toString n
  | real x => x.scientific
  | str s => quoted s

def prettyItems (depth : Nat) : List Json → List String
  | [] => []
  | item :: items => item.prettyAt depth :: prettyItems depth items

def prettyFields (depth : Nat) : List (String × Json) → List String
  | [] => []
  | (name, value) :: fields =>
    (quoted name ++ ": " ++ value.prettyAt depth) :: prettyFields depth fields

end

def pretty (json : Json) : String := json.prettyAt 0

end Json

end OpTrace

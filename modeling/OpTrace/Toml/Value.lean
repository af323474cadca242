import OpTrace.Toml.Document
import OpTrace.Toml.Moment
import OpTrace.Toml.Text

/-!
# Keys and values

A value begins with its kind: a mark, a bracket, a brace, a digit or sign, or the first letter of
one of a few words. Values nest in fewer than eighty brackets and braces, and a key has fewer than
eighty names.
-/

namespace OpTrace

namespace Toml

/-- How many names a key may have, and how many brackets and braces may be open around a value,
less one. -/
def nestingBound : Nat := 80

/-- Reads items with marks between them, at least one. A mark that no item follows is not read. -/
def separated {α : Type} (mark : Char) (read : List Char → Reading (α × List Char))
    (text : List Char) : Reading (List α × List Char) :=
  match read text with
  | .error fault => .error fault
  | .ok (item, rest) =>
    match rest with
    | c :: more =>
      if c = mark ∧ more.length < text.length then
        match separated mark read more with
        | .ok (items, rest) => .ok (item :: items, rest)
        | .error fault => if fault.isFinal then .error fault else .ok ([item], c :: more)
      else .ok ([item], rest)
    | [] => .ok ([item], [])
termination_by text.length

def separatedOrNone {α : Type} (mark : Char) (read : List Char → Reading (α × List Char))
    (text : List Char) : Reading (List α × List Char) :=
  match separated mark read text with
  | .error fault => if fault.isFinal then .error fault else .ok ([], text)
  | .ok result => .ok result

def readName (text : List Char) : Reading (String × List Char) :=
  match text with
  | '"' :: rest => readShortText '"' rest
  | '\'' :: rest => readShortText '\'' rest
  | text =>
    let name := text.takeWhile isKeyChar
    if name.isEmpty then .error (.atPlace text)
    else .ok (String.ofList name, text.dropWhile isKeyChar)

def readKeyName (text : List Char) : Reading (KeyName × List Char) := do
  let start := skipBlanks text
  let (name, stop) ← readName start
  return ({ name, span := ⟨start, stop⟩ }, skipBlanks stop)

def readKey (text : List Char) : Reading (Key × List Char) := do
  let (names, rest) ← within .key (separated '.' readKeyName text)
  match names.getLast? with
  | none => throw (.atPlace text)
  | some last =>
    if names.length < nestingBound then return ({ path := names.dropLast, last }, rest)
    else throw (.atPlace text (some .tooDeep))

/-- Reads a word that is meant as a value of its own. -/
def readWord (word : String) (text : List Char) : Reading (List Char) :=
  if word.toList.isPrefixOf text then .ok (text.drop word.length)
  else within .text (.error (.atPlace text (some (.expected ["`\"`", "`'`"]))))

def readNumeral (text : List Char) : Reading (Scalar × List Char) := do
  match ← skipMoment? text with
  | some rest => return (.moment, rest)
  | none =>
    match ← readNumber? text with
    | some (x, rest) => return (.number x, rest)
    | none => do
      let (n, rest) ← readInteger text
      return (.integer n, rest)

/-- Reads a value without parts. A digit has to stand in front of a point or an underscore. -/
def readScalar (text : List Char) : Reading (Scalar × List Char) :=
  match text with
  | '"' :: rest => do
    let (s, rest) ← readText '"' rest
    return (.text s, rest)
  | '\'' :: rest => do
    let (s, rest) ← readText '\'' rest
    return (.text s, rest)
  | '_' :: _ =>
    within .integer (.error (.atPlace text (some (.expected ["leading digit"]))))
  | '.' :: _ =>
    within .float (.error (.atPlace text (some (.expected ["leading digit"]))))
  | 't' :: _ => do return (.boolean true, ← final (readWord "true" text))
  | 'f' :: _ => do return (.boolean false, ← final (readWord "false" text))
  | 'i' :: _ => do return (.number (.ofFloat (1.0 / 0.0)), ← readWord "inf" text)
  | 'n' :: _ => do return (.number (.ofFloat (0.0 / 0.0)), ← readWord "nan" text)
  | [] => .error (.atPlace [])
  | c :: _ =>
    if c.isDigit ∨ c = '+' ∨ c = '-' then readNumeral text
    else within .text (.error (.atPlace text (some (.expected ["`\"`", "`'`"]))))

def readClosing (construct : Construct) (mark : Char) : List Char → Reading (List Char)
  | c :: rest =>
    if c = mark then .ok rest else final (within construct (.error (missing (c :: rest))))
  | [] => final (within construct (.error (missing [])))
where
  /-- The fault that the mark is missing. -/
  missing (place : List Char) : Fault :=
    .atPlace place (some (.expected [String.ofList ['`', mark, '`']]))

/-- Reads an item of an array and what is around it. -/
def readItem (readValue : List Char → Reading (Toml × List Char)) (text : List Char) :
    Reading (Toml × List Char) := do
  let (value, rest) ← readValue (← skipSpace text)
  return (value, ← skipSpace rest)

/-- Reads an array behind its opening bracket. A comma may follow the last item. -/
def readItems (readValue : List Char → Reading (Toml × List Char)) (text : List Char) :
    Reading (List Toml × List Char) := do
  let (items, rest) ← separatedOrNone ',' (readItem readValue) text
  let rest := match items, rest with
    | _ :: _, ',' :: rest => rest
    | _, rest => rest
  return (items, ← readClosing .array ']' (← final (skipSpace rest)))

def readAssigned (readValue : List Char → Reading (Toml × List Char)) (text : List Char) :
    Reading (Toml × List Char) :=
  final <|
    match text with
    | '=' :: rest => readValue (skipBlanks rest)
    | text => .error (.atPlace text (some (.expected ["`.`", "`=`"])))

def readEntry (readValue : List Char → Reading (Toml × List Char)) (text : List Char) :
    Reading ((Key × Toml) × List Char) := do
  let (key, rest) ← readKey text
  let (value, rest) ← readAssigned readValue rest
  return ((key, value), skipBlanks rest)

def readEntries (readValue : List Char → Reading (Toml × List Char)) (text : List Char) :
    Reading (Fields × List Char) := do
  let (entries, rest) ← separatedOrNone ',' (readEntry readValue) text
  let fields ← (Fields.ofEntries entries).mapError fun detail ↦
    (Fault.atPlace text (some detail)).final
  return (fields, ← readClosing .inlineTable '\x7d' (skipBlanks rest))

/-- Reads a value inside of so many brackets and braces that at most `depth` more may be opened. -/
def readValue (depth : Nat) (text : List Char) : Reading (Toml × List Char) :=
  match text with
  | '[' :: rest =>
    match depth with
    | 0 => .error (Fault.atPlace text (some .tooDeep)).final
    | depth + 1 => do
      let (items, stop) ← final (readItems (readValue depth) rest)
      return (.array ⟨text, stop⟩ items, stop)
  | '\x7b' :: rest =>
    match depth with
    | 0 => .error (Fault.atPlace text (some .tooDeep)).final
    | depth + 1 => do
      let (fields, stop) ← final (readEntries (readValue depth) rest)
      return (.table .inline ⟨⟨text, stop⟩, fields⟩, stop)
  | text => do
    let (value, stop) ← readScalar text
    return (.scalar ⟨text, stop⟩ value, stop)

end Toml

end OpTrace

import OpTrace.Toml.Value

/-!
# Reading configuration texts

A text is read line by line: a line is empty, holds an entry, or is a header that opens a table. A
comment may end it.
-/

namespace OpTrace

namespace Toml

/-- Reads a value that is in no bracket or brace. -/
def readTopValue (text : List Char) : Reading (Toml × List Char) :=
  readValue (nestingBound - 1) text

/-- Reads the names of a header up to its closing brackets. -/
def readHeaderKey (isElement : Bool) (text : List Char) : Reading (Key × List Char) := do
  let (key, rest) ← readKey (text.drop (if isElement then 2 else 1))
  let closing := if isElement then "]]" else "]"
  if closing.toList.isPrefixOf rest then return (key, rest.drop closing.length)
  else throw (.atPlace rest (some (.expected ["`.`", "`" ++ closing ++ "`"])))

namespace Document

def readHeader (document : Document) (text : List Char) : Reading (Document × List Char) :=
  within .header do
    if text.drop 1 = [] then throw (.atPlace text)
    let isElement := "[[".toList.isPrefixOf text
    let (key, stop) ← readHeaderKey isElement text
    let rest ← skipRestOfLine stop
    let document ← (document.header isElement key ⟨text, stop⟩).mapError fun detail ↦
      Fault.atPlace text (some detail)
    return (document, rest)

def readAssignment (document : Document) (text : List Char) :
    Reading (Document × List Char) := do
  let (key, rest) ← readKey text
  let (value, rest) ← readAssigned readTopValue rest
  let rest ← skipRestOfLine rest
  let document ← (document.assign key value).mapError fun detail ↦
    Fault.atPlace text (some detail)
  return (document, rest)

def readLine (document : Document) (text : List Char) : Reading (Document × List Char) :=
  match text with
  | '[' :: _ => document.readHeader text
  | '#' :: _ | '\n' :: _ | '\r' :: _ => do return (document, ← skipLine text)
  | text => document.readAssignment text

def readFrom (document : Document) (text : List Char) : Reading Document :=
  match skipBlanks text with
  | [] => .ok document
  | c :: rest =>
    match document.readLine (c :: rest) with
    | .error fault => .error fault
    | .ok (document, left) =>
      if left.length < text.length then readFrom document left else .ok document
termination_by text.length

end Document

/-- Reads a configuration text. A mark of the byte order in front of it is passed over. -/
def ofText (source : String) : Reading (Table Toml) := do
  let source := source.toList
  let document : Document := { root := ⟨⟨source, source⟩, []⟩ }
  let document ← document.readFrom <|
    match source with
    | '\uFEFF' :: rest => rest
    | source => source
  return document.root

end Toml

end OpTrace

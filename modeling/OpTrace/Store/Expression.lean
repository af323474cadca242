import OpTrace.Store.Pattern

/-!
# Patterns as search expressions

A pattern can be written in the language of text search. There `.` is any one character and `.*` any
run of them, `^` and `$` are the two ends of the text, and a backslash in front of a character with
a meaning takes the meaning away. The expression of a pattern begins with the flag by which `.` is
also the end of a line.

Characters that stand for themselves are collected, in lower case. Each wildcard, and the end of the
pattern, writes what was collected before.
-/

namespace OpTrace

namespace Expression

/-- Does the character have a meaning of its own in expressions? -/
def isMeta (c : Char) : Bool := "\\.+*?()|[]\x7b\x7d^$#&-~".toList.contains c

/-- Writes a text such that each of its characters stands for itself. -/
def escape (text : List Char) : List Char :=
  text.flatMap fun c ↦ if isMeta c then ['\\', c] else [c]

/-- An expression while it is written. -/
structure Draft where
  written : List Char
  /-- the characters that wait to be written -/
  literal : List Char
  deriving DecidableEq, Repr

namespace Draft

/-- Nothing but what stands in front of every pattern. -/
def start : Draft := ⟨"(?s)^".toList, []⟩

def flush (draft : Draft) : Draft := ⟨draft.written ++ escape draft.literal, []⟩

def wildcard (spelling : List Char) (draft : Draft) : Draft :=
  { draft.flush with written := draft.flush.written ++ spelling }

def see (draft : Draft) (c : Char) : Draft :=
  if c = '%' then draft.wildcard ".*".toList
  else if c = '_' then draft.wildcard ".".toList
  else { draft with literal := draft.literal ++ [c.toLower] }

end Draft

end Expression

def TagPattern.expression (pattern : TagPattern) : String :=
  String.ofList ((pattern.text.toList.foldl Expression.Draft.see .start).flush.written ++ ['$'])

end OpTrace

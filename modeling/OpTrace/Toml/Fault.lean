import OpTrace.Toml.Basic

/-!
# Faults of configuration texts

Reading stops at the first fault. A fault is reported with its line and column, the line itself and
a mark below the stretch at fault, and a complaint: which construct is not well formed, and what
was expected there or is wrong with it. Of constructs inside each other the innermost one is named.

A fault is final once the text can only be meant as the construct at fault. One that is not final
means that the construct is not there at all.
-/

namespace OpTrace

namespace Toml

/-- A part of a configuration text that may be badly formed. -/
inductive Construct where
  | key
  | header
  | text
  | basicText
  | literalText
  | longBasicText
  | longLiteralText
  | escape
  | shortCode
  | longCode
  | integer
  | hexadecimal
  | octal
  | binary
  | float
  | moment
  | time
  | offset
  | array
  | inlineTable
  deriving DecidableEq, Repr

def Construct.name : Construct → String
  | key => "key"
  | header => "table header"
  | text => "string"
  | basicText => "basic string"
  | literalText => "literal string"
  | longBasicText => "multiline basic string"
  | longLiteralText => "multiline literal string"
  | escape => "escape sequence"
  | shortCode => "unicode 4-digit hex code"
  | longCode => "unicode 8-digit hex code"
  | integer => "integer"
  | hexadecimal => "hexadecimal integer"
  | octal => "octal integer"
  | binary => "binary integer"
  | float => "floating-point number"
  | moment => "date-time"
  | time => "time"
  | offset => "time offset"
  | array => "array"
  | inlineTable => "inline table"

/-- What is wrong. -/
inductive Detail where
  /-- one of these was to come next -/
  | expected (what : List String)
  /-- a name is assigned twice in the table with the given names, if there is a name for it -/
  | repeated (name : String) (among : Option (List String))
  /-- a key leads into a value of another kind -/
  | closed (names : List String) (kind : String)
  | tooDeep
  | outOfRange
  | tooLarge
  | tooSmall
  /-- a value of another kind was wanted -/
  | mismatch (found wanted : String)
  | missingField (name : String)
  /-- a list has too few items -/
  | tooShort (size : Nat) (wanted : String)
  deriving DecidableEq, Repr

def Detail.message : Detail → String
  | expected what => "expected " ++ ", ".intercalate what
  | repeated name none => s!"duplicate key `{name}`"
  | repeated name (some []) => s!"duplicate key `{name}` in document root"
  | repeated name (some names) =>
    s!"duplicate key `{name}` in table `" ++ ".".intercalate names ++ "`"
  | closed names kind =>
    "dotted key `" ++ ".".intercalate names ++ s!"` attempted to extend non-table type ({kind})"
  | tooDeep => "recursion limit exceeded"
  | outOfRange => "value is out of range"
  | tooLarge => "number too large to fit in target type"
  | tooSmall => "number too small to fit in target type"
  | mismatch found wanted => s!"invalid type: {found}, expected {wanted}"
  | missingField name => s!"missing field `{name}`"
  | tooShort size wanted => s!"invalid length {size}, expected {wanted}"

/-- The construct that is badly formed and what is wrong, as far as either can be said. -/
structure Complaint where
  construct : Option Construct := none
  detail : Option Detail := none
  deriving DecidableEq, Repr

def Complaint.message (complaint : Complaint) : String :=
  "\n".intercalate <|
    (complaint.construct.map fun construct ↦ "invalid " ++ construct.name).toList ++
      (complaint.detail.map Detail.message).toList

/-- A complaint about a stretch of a text. -/
structure Fault where
  span : Span
  complaint : Complaint
  isFinal : Bool := false

namespace Fault

def atPlace (place : List Char) (detail : Option Detail := none) : Fault where
  span := .char place
  complaint := { detail }

/-- Names the construct, unless one inside it is named. -/
def within (construct : Construct) (fault : Fault) : Fault :=
  { fault with complaint.construct := fault.complaint.construct.or (some construct) }

def final (fault : Fault) : Fault := { fault with isFinal := true }

def expecting (what : String) (fault : Fault) : Fault :=
  let others := match fault.complaint.detail with
    | some (.expected others) => others
    | _ => []
  { fault with complaint.detail := some (.expected (others ++ [what])) }

end Fault

/-- What is read, or the fault that it has. What is left of the text comes with it. -/
abbrev Reading := Except Fault

def within {α : Type} (construct : Construct) (reading : Reading α) : Reading α :=
  reading.mapError (Fault.within construct)

def final {α : Type} (reading : Reading α) : Reading α := reading.mapError Fault.final

/-- A complaint and what it is about, as they are shown. -/
structure Report where
  line : Nat
  column : Nat
  /-- the text of the line -/
  content : String
  /-- how many marks stand below the line -/
  width : Nat
  complaint : Complaint
  deriving DecidableEq, Repr

def Report.message (report : Report) : String :=
  let number := toString report.line
  let margin := String.ofList (List.replicate (number.length + 1) ' ') ++ "|"
  let indent := String.ofList (List.replicate report.column ' ')
  s!"TOML parse error at line {number}, column {report.column}\n{margin}\n" ++
    s!"{number} | {report.content}\n{margin}{indent}" ++
    String.ofList (List.replicate report.width '^') ++ s!"\n{report.complaint.message}\n"

def byteSize (chars : List Char) : Nat := (chars.map Char.utf8Size).foldl (· + ·) 0

/-- The column behind the given part of a line, in front of the rest of it. Columns count
characters, but bytes in front of a character of several bytes. The end of a text counts as
belonging to its last line, even behind a line feed. -/
def columnOf (before rest : List Char) : Nat :=
  match rest with
  | [] => before.length + 1
  | c :: _ => (if c.utf8Size = 1 then before.length else byteSize before) + 1

/-- The report of a fault of a text. There is a mark per byte of the stretch, but the marks go no
further than the line has bytes. -/
def Fault.report (source : List Char) (fault : Fault) : Report :=
  let before := source.take (source.length - fault.span.start.length)
  let isEnd := fault.span.start.isEmpty && before.getLast? == some '\n'
  let earlier := if isEnd then before.dropLast else before
  let lineStart := (earlier.reverse.takeWhile (· ≠ '\n')).reverse
  let content := lineStart ++ (source.drop earlier.length).takeWhile (· ≠ '\n')
  let column := columnOf (before.drop (earlier.length - lineStart.length)) fault.span.start
  let width := byteSize fault.span.start - byteSize fault.span.stop
  { line := earlier.count '\n' + 1
    column
    content := String.ofList content
    width := max 1 (min width (byteSize content + 1 - column))
    complaint := fault.complaint }

end Toml

end OpTrace

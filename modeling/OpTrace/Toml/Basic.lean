import OpTrace.Decimal.Binary64

/-!
# Configuration values

A configuration text assigns values to keys in nested tables. Whether a table may be added to later
depends on how it came to be: a table that is written out in braces is closed, a table that has a
header of its own is open only below that header, a table that dotted keys made is open to more
dotted keys, and a table that only stands between the names of a header may still get a header of
its own.

Each value knows the stretch of the text that it stands in, so that a complaint about it can show
where it is.
-/

namespace OpTrace

namespace Toml

/-- A stretch of a text. A place in a text is given by what is left of the text there. -/
structure Span where
  start : List Char
  stop : List Char

/-- The stretch of one character, or of none at the end of the text. -/
def Span.char (place : List Char) : Span := ⟨place, place.drop 1⟩

/-- How a table came to be. -/
inductive Origin where
  /-- written out in braces -/
  | inline
  /-- named by a header -/
  | header
  /-- named in front of the last dot of a key -/
  | dotted
  /-- named in front of the last dot of a header -/
  | implied
  deriving DecidableEq, Repr

/-- A value without parts. -/
inductive Scalar where
  | text (s : String)
  | integer (n : Int)
  /-- a number that is not whole -/
  | number (x : Binary64)
  | boolean (b : Bool)
  /-- a date, a time of day, or both -/
  | moment
  deriving DecidableEq, Repr

/-- The entries of a table, and the stretch that it stands in. -/
structure Table (α : Type) where
  span : Span
  entries : List (String × α)

end Toml

/-- A configuration value. -/
inductive Toml where
  | scalar (span : Toml.Span) (value : Toml.Scalar)
  | array (span : Toml.Span) (items : List Toml)
  | table (origin : Toml.Origin) (body : Toml.Table Toml)
  /-- the tables under headers of one name in double brackets -/
  | tables (bodies : List (Toml.Table Toml))

namespace Toml

abbrev Fields := List (String × Toml)

def span : Toml → Span
  | scalar span _ => span
  | array span _ => span
  | table _ body => body.span
  | tables bodies =>
    match bodies.head?, bodies.getLast? with
    | some first, some last => ⟨first.span.start, last.span.stop⟩
    | _, _ => ⟨[], []⟩

def kind : Toml → String
  | scalar _ (.text _) => "string"
  | scalar _ (.integer _) => "integer"
  | scalar _ (.number _) => "float"
  | scalar _ (.boolean _) => "boolean"
  | scalar _ .moment => "datetime"
  | array .. => "array"
  | table .inline _ => "inline table"
  | table .. => "table"
  | tables _ => "array of tables"

/-- One name of a key, and the stretch that it stands in. -/
structure KeyName where
  name : String
  span : Span

/-- A key: the names of the tables around it, and its own name. -/
structure Key where
  path : List KeyName
  last : KeyName

namespace Fields

def get? (fields : Fields) (name : String) : Option Toml := fields.lookup name

/-- Sets the entry of a name. An entry that is there is replaced in its place. -/
def set (name : String) (value : Toml) : Fields → Fields
  | [] => [(name, value)]
  | (other, earlier) :: rest =>
    if other = name then (name, value) :: rest else (other, earlier) :: set name value rest

/-- Sets the entry of a name, which comes last then. -/
def setLast (name : String) (value : Toml) (fields : Fields) : Fields :=
  fields.filter (fun field ↦ !(field.1 == name)) ++ [(name, value)]

@[simp] theorem get?_set (name : String) (value : Toml) (fields : Fields) :
    get? (set name value fields) name = some value := by
  induction fields with
  | nil => simp [get?, set]
  | cons field rest ih =>
    obtain ⟨other, earlier⟩ := field
    by_cases h : other = name
    · simp [get?, set, h]
    · have h' : (name == other) = false := by simpa using fun hn ↦ h hn.symm
      simpa [get?, set, h, List.lookup_cons, h'] using ih

@[simp] theorem get?_setLast (name : String) (value : Toml) (fields : Fields) :
    get? (setLast name value fields) name = some value := by
  induction fields with
  | nil => simp [get?, setLast]
  | cons field rest ih =>
    obtain ⟨other, earlier⟩ := field
    by_cases h : other = name
    · simpa [get?, setLast, h] using ih
    · have h' : (name == other) = false := by simpa using fun hn ↦ h hn.symm
      simpa [get?, setLast, h, List.lookup_cons, h'] using ih

end Fields

end Toml

end OpTrace

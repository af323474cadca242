import OpTrace.Decimal.Text
import OpTrace.Text.Visible
import OpTrace.Toml.Fault

/-!
# The shape of values

A value that is wanted in one shape and has another one is at fault, and so is a table that lacks a
field. A shape is found to be wrong in the order of the text. A date or a time of day is taken for a
table, of which no field is known.
-/

namespace OpTrace

namespace Toml

def shownChar (c : Char) : List Char :=
  if c = '"' ∨ c = '\\' then ['\\', c]
  else if c = '\t' then ['\\', 't']
  else if c = '\n' then ['\\', 'n']
  else if c = '\r' then ['\\', 'r']
  else if c.toNat = 0 then ['\\', '0']
  else if Text.isVisible c then [c]
  else ['\\', 'u', '\x7b'] ++ Nat.toDigits 16 c.toNat ++ ['\x7d']

def shownText (s : String) : String :=
  String.ofList ('"' :: (s.toList.flatMap shownChar ++ ['"']))

/-- A number that is not whole, as it is shown: with a point, if it is finite. -/
def shownNumber (x : Binary64) : String :=
  if x.isFinite ∧ ¬ x.plain.toList.contains '.' then x.plain ++ ".0" else x.plain

def shown : Toml → String
  | scalar _ (.text s) => "string " ++ shownText s
  | scalar _ (.integer n) => s!"integer `{n}`"
  | scalar _ (.number x) => "floating point `" ++ shownNumber x ++ "`"
  | scalar _ (.boolean b) => s!"boolean `{b}`"
  | scalar _ .moment => "map"
  | array .. => "sequence"
  | table .. => "map"
  | tables _ => "sequence"

/-- The fault of a value that is not what is wanted. -/
def mismatch (value : Toml) (wanted : String) : Fault where
  span := value.span
  complaint := { detail := some (.mismatch value.shown wanted) }

def toText : Toml → Reading String
  | scalar _ (.text s) => .ok s
  | value => .error (value.mismatch "a string")

/-- The items of an array, or of tables in double brackets. -/
def toItems : Toml → Reading (List Toml)
  | array _ items => .ok items
  | tables bodies => .ok (bodies.map (.table .header))
  | value => .error (value.mismatch "a sequence")

def toTexts (value : Toml) : Reading (List String) := do (← value.toItems).mapM toText

def toTable? : Toml → Option (Table Toml)
  | table _ body => some body
  | scalar span .moment => some { span, entries := [] }
  | _ => none

def Table.field (name : String) (body : Table Toml) : Reading Toml :=
  match Fields.get? body.entries name with
  | some value => .ok value
  | none =>
    .error { span := body.span, complaint := { detail := some (.missingField name) } }

end Toml

end OpTrace

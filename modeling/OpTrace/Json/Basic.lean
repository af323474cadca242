import OpTrace.Decimal.Binary64

/-!
# Documents

A document is a tree of plain values. The fields of a record keep their order, since the written
form shows it. Whole numbers are kept apart from other numbers: a whole number is never written
with a point, and a record that asks for a whole number accepts no other.
-/

namespace OpTrace

/-- A plain value. -/
inductive Json where
  | null
  | bool (b : Bool)
  | int (n : Int)
  | real (x : Binary64)
  | str (s : String)
  | arr (items : List Json)
  | obj (fields : List (String × Json))

namespace Json

def field? (name : String) : Json → Option Json
  | obj fields => fields.lookup name
  | _ => none

/-- A field that is left out when there is nothing to write. -/
def optional {α : Type} (name : String) (encode : α → Json) : Option α → List (String × Json)
  | none => []
  | some a => [(name, encode a)]

def nullable {α : Type} (encode : α → Json) : Option α → Json
  | none => null
  | some a => encode a

def list {α : Type} (encode : α → Json) (items : List α) : Json := arr (items.map encode)

/-- A whole number that fits a signed word of 64 bits. -/
def word? : Json → Option Int
  | int n => if -Int.pow 2 63 ≤ n ∧ n < Int.pow 2 63 then some n else none
  | _ => none

def text? : Json → Option String
  | str s => some s
  | _ => none

def texts? : Json → Option (List String)
  | arr items => items.mapM text?
  | _ => none

/-- The values of the named fields of a record, as a look-up. A record may also be written as an
array that holds all its values in the declared order. -/
def record? (names : List String) : Json → Option (String → Option Json)
  | obj fields => some fun name ↦ fields.lookup name
  | arr items =>
    if items.length = names.length then some fun name ↦ (names.zip items).lookup name else none
  | _ => none

end Json

end OpTrace

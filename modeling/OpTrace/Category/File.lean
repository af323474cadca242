import OpTrace.Category.Table
import OpTrace.Json.Basic
import OpTrace.Toml.Reader
import OpTrace.Toml.Shape

/-!
# Category files

Categories are given as a configuration text with an entry `category`, which lists tables with a
`name`, `tags` and perhaps a `description`, or as a document with the same fields. Other fields are
passed over, and the description is looked at only to see that it is a text. A category may also be
written as an array of its name, its description and its tags.
-/

namespace OpTrace

/-- Why a text of categories gives no table. -/
inductive CategoryFileError where
  /-- the text is no configuration text, or one of another shape -/
  | text (report : Toml.Report)
  | table (error : CategoryError)
  deriving DecidableEq, Repr

def CategoryFileError.message : CategoryFileError → String
  | text report => report.message
  | table error => error.message

namespace Toml

def checkCategoryField (name : String) (value : Toml) : Reading Unit :=
  if name = "name" ∨ name = "description" then discard value.toText
  else if name = "tags" then discard value.toTexts
  else .ok ()

def categoryShape : String := "struct CategoryDefinition"

def Table.toCategory (body : Table Toml) : Reading Category := do
  body.entries.forM fun (name, value) ↦ checkCategoryField name value
  return { name := ← (← body.field "name").toText, tags := ← (← body.field "tags").toTexts }

def toCategory : Toml → Reading Category
  | array _ (name :: description :: tags :: _) => do
    let name ← name.toText
    discard description.toText
    return { name, tags := ← tags.toTexts }
  | array span items => do
    discard (items.mapM toText)
    let size := if items.isEmpty then 0 else 2
    let detail := Detail.tooShort size (categoryShape ++ " with 3 elements")
    throw { span, complaint := { detail := some detail } }
  | value =>
    match value.toTable? with
    | some body => body.toCategory
    | none => .error (value.mismatch categoryShape)

def Table.toCategories (root : Table Toml) : Reading (List Category) := do
  (← (← root.field "category").toItems).mapM Toml.toCategory

end Toml

def Category.ofJson? (json : Json) : Option Category := do
  let field? ← json.record? ["name", "description", "tags"]
  let name ← (← field? "name").text?
  let tags ← (← field? "tags").texts?
  match field? "description" with
  | none => return { name, tags }
  | some description => do
    let _ ← description.text?
    return { name, tags }

def CategoryTable.ofText (source : String) : Except CategoryFileError CategoryTable :=
  match Toml.ofText source >>= Toml.Table.toCategories with
  | .error fault => .error (.text (fault.report source.toList))
  | .ok categories => (ofCategories categories).mapError .table

end OpTrace

import OpTrace.Toml.Name

/-!
# Growing a document

A document grows entry by entry, below the header that came last. A header names a table by the
names of the tables around it; a name that belongs to tables in double brackets means the last one
of them. Nothing is ever assigned twice, and no table is opened twice.
-/

namespace OpTrace

namespace Toml

/-- What growing a table makes of it, or why it cannot grow so. -/
abbrev Growing (α : Type) := Except Detail α

/-- Adds an entry that has no value yet. -/
def Fields.add (among : Option (List String)) (name : String) (value : Toml) (fields : Fields) :
    Growing Fields :=
  if (fields.get? name).isSome then .error (.repeated name among)
  else .ok (fields.set name value)

/-- Adds an entry below tables that the names in front of it make or lead through. The entry itself
may only go into a table that dotted keys have made. `among` names the table that grows, if it is
no table in braces, and `passed` are the names that have led to the given fields. -/
def Fields.assign (among : Option (List String)) (passed : List String) (last : KeyName)
    (value : Toml) : List KeyName → Fields → Growing Fields
  | [], fields => fields.add among last.name value
  | first :: path, fields =>
    let passed := passed ++ [first.name]
    match fields.get? first.name with
    | none => do
      let inner ← assign among passed last value path []
      return fields.set first.name (.table .dotted ⟨first.span, inner⟩)
    | some (.table .dotted body) => do
      let inner ← assign among passed last value path body.entries
      return fields.set first.name (.table .dotted { body with entries := inner })
    | some (.table .implied body) =>
      if path.isEmpty then .error (.repeated last.name none)
      else do
        let inner ← assign among passed last value path body.entries
        return fields.set first.name (.table .implied { body with entries := inner })
    | some (.tables bodies) =>
      if path.isEmpty then .error (.repeated last.name none)
      else
        match bodies.getLast? with
        | none => .error (.repeated last.name none)
        | some body => do
          let inner ← assign among passed last value path body.entries
          return fields.set first.name
            (.tables (bodies.dropLast ++ [{ body with entries := inner }]))
    | some (.table .header _) => .error (.repeated first.name none)
    | some value =>
      match value, among with
      | .table .inline _, none => .error (.repeated first.name none)
      | value, _ => .error (.closed passed value.kind)

/-- The entries of a table that is written out in braces. -/
def Fields.ofEntries (entries : List (Key × Toml)) : Growing Fields :=
  entries.foldlM (fun fields (key, value) ↦ fields.assign none [] key.last value key.path) []

/-- Changes the table that the names of a header lead to. Tables that are not there yet are made. -/
def Table.change (f : Table Toml → Growing (Table Toml)) (passed : List String) :
    List KeyName → Table Toml → Growing (Table Toml)
  | [], outer => f outer
  | first :: path, outer =>
    let passed := passed ++ [first.name]
    let grown (value : Toml) : Table Toml :=
      { outer with entries := Fields.set first.name value outer.entries }
    match Fields.get? outer.entries first.name with
    | none => do return grown (.table .implied (← change f passed path ⟨first.span, []⟩))
    | some (.table .inline _) => .error (.closed passed "inline table")
    | some (.table origin body) => do return grown (.table origin (← change f passed path body))
    | some (.tables bodies) =>
      match bodies.getLast? with
      | none => .error (.closed passed "array of tables")
      | some body => do
        return grown (.tables (bodies.dropLast ++ [← change f passed path body]))
    | some value => .error (.closed passed value.kind)

/-- Opens a table. It must be new, or only have been implied by other headers. Either way it comes
last now. -/
def Table.openTable (among : List String) (name : String) (span : Span) (outer : Table Toml) :
    Growing (Table Toml) :=
  let grown (entries : Fields) : Table Toml :=
    { outer with entries := Fields.setLast name (.table .header ⟨span, entries⟩) outer.entries }
  match Fields.get? outer.entries name with
  | none => .ok (grown [])
  | some (.table .implied body) => .ok (grown body.entries)
  | some _ => .error (.repeated (writtenName name) (some among))

/-- Opens one more table under a name in double brackets. -/
def Table.openElement (among : List String) (name : String) (span : Span) (outer : Table Toml) :
    Growing (Table Toml) :=
  let grown (bodies : List (Table Toml)) : Table Toml :=
    { outer with entries := Fields.set name (.tables (bodies ++ [⟨span, []⟩])) outer.entries }
  match Fields.get? outer.entries name with
  | none => .ok (grown [])
  | some (.tables bodies) => .ok (grown bodies)
  | some _ => .error (.repeated (writtenName name) (some among))

/-- A document that is being read. -/
structure Document where
  root : Table Toml
  /-- the names of the header that came last -/
  current : List KeyName := []

namespace Document

def header (document : Document) (isElement : Bool) (key : Key) (span : Span) :
    Growing Document := do
  let among := key.path.map (·.name)
  let name := key.last.name
  let root ← document.root.change
    (if isElement then Table.openElement among name span else Table.openTable among name span)
    [] key.path
  return { root, current := key.path ++ [key.last] }

/-- Takes an entry. The table below the last header stretches as far as its last value. -/
def assign (document : Document) (key : Key) (value : Toml) : Growing Document := do
  let among := document.current.map (·.name)
  let grow (body : Table Toml) : Growing (Table Toml) := do
    let entries ← Fields.assign (some among) [] key.last value key.path body.entries
    return { span := ⟨body.span.start, value.span.stop⟩, entries }
  return { document with root := ← document.root.change grow [] document.current }

end Document

end Toml

end OpTrace

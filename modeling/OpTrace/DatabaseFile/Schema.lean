/-!
# Column definitions

A database file keeps the statement that made each of its tables. The statement lists the columns in
the order of the cells in a record. A column that is the whole-number primary key has no cells of
its own: its values are the row numbers.
-/

namespace OpTrace

namespace DatabaseFile

/-- A part of a statement. -/
inductive SchemaToken where
  /-- a word, in capitals, and as it is written -/
  | word (capitals written : String)
  /-- a name in quotes -/
  | quoted (name : String)
  | opening
  | closing
  | comma
  deriving DecidableEq, Repr

/-- A column of a table. -/
structure Column where
  name : String
  isRowNumber : Bool
  deriving DecidableEq, Repr

/-- What surrounds a character of a statement. -/
inductive SchemaPlace where
  | plain
  /-- a word, its last character first -/
  | word (seen : List Char)
  /-- quotes with this closing mark -/
  | quoted (mark : Char) (seen : List Char)
  | lineComment
  | comment

def wordOf (seen : List Char) : SchemaToken :=
  let written := String.ofList seen.reverse
  .word (written.map Char.toUpper) written

def closingMark? : Char → Option Char
  | '"' => some '"'
  | '\'' => some '\''
  | '`' => some '`'
  | '[' => some ']'
  | _ => none

def single? : Char → Option SchemaToken
  | '(' => some .opening
  | ')' => some .closing
  | ',' => some .comma
  | _ => none

/-- What a character in plain text begins, and the token that it is. -/
def beginToken (c : Char) : SchemaPlace × List SchemaToken :=
  match closingMark? c, single? c with
  | some mark, _ => (.quoted mark [], [])
  | none, some token => (.plain, [token])
  | none, none => if c.isWhitespace then (.plain, []) else (.word [c], [])

def schemaTokensFrom (place : SchemaPlace) : List Char → List SchemaToken
  | [] =>
    match place with
    | .word seen => [wordOf seen]
    | _ => []
  | c :: rest =>
    match place with
    | .lineComment => schemaTokensFrom (if c = '\n' then .plain else .lineComment) rest
    | .comment =>
      match c, rest with
      | '*', '/' :: behind => schemaTokensFrom .plain behind
      | _, rest => schemaTokensFrom .comment rest
    | .quoted mark seen =>
      if c = mark then
        match rest with
        | next :: behind =>
          if next = mark then schemaTokensFrom (.quoted mark (c :: seen)) behind
          else .quoted (String.ofList seen.reverse) :: schemaTokensFrom .plain (next :: behind)
        | [] => [.quoted (String.ofList seen.reverse)]
      else schemaTokensFrom (.quoted mark (c :: seen)) rest
    | .plain =>
      match c, rest with
      | '-', '-' :: behind => schemaTokensFrom .lineComment behind
      | '/', '*' :: behind => schemaTokensFrom .comment behind
      | c, rest =>
        let (next, tokens) := beginToken c
        tokens ++ schemaTokensFrom next rest
    | .word seen =>
      if c.isAlphanum || c = '_' || 128 ≤ c.toNat then schemaTokensFrom (.word (c :: seen)) rest
      else
        let (next, tokens) := beginToken c
        wordOf seen :: (tokens ++ schemaTokensFrom next rest)

/-- The definitions between the outermost brackets, which commas separate. `depth` counts the open
brackets, and `current` holds the tokens of the definition so far, last one first. -/
def definitionsFrom (depth : Nat) (current : List SchemaToken) :
    List SchemaToken → List (List SchemaToken)
  | [] => [current.reverse]
  | .opening :: rest =>
    if depth = 0 then definitionsFrom 1 [] rest
    else definitionsFrom (depth + 1) (.opening :: current) rest
  | .closing :: rest =>
    if depth ≤ 1 then [current.reverse]
    else definitionsFrom (depth - 1) (.closing :: current) rest
  | .comma :: rest =>
    if depth = 1 then current.reverse :: definitionsFrom 1 [] rest
    else definitionsFrom depth (.comma :: current) rest
  | token :: rest =>
    definitionsFrom depth (if depth = 0 then [] else token :: current) rest

/-- The words that begin a definition of something other than a column. -/
def constraintWords : List String := ["CONSTRAINT", "PRIMARY", "UNIQUE", "CHECK", "FOREIGN"]

/-- Is the column that these tokens type the primary key, as a whole number? -/
def isRowNumberType (tokens : List SchemaToken) : Bool :=
  let words := tokens.filterMap fun token ↦ match token with
    | .word capitals _ => some capitals
    | _ => none
  match words with
  | "INTEGER" :: rest => ["PRIMARY", "KEY"].isPrefixOf (rest.dropWhile (· ≠ "PRIMARY"))
  | _ => false

def column? : List SchemaToken → Option Column
  | .word capitals written :: type =>
    if capitals ∈ constraintWords then none
    else some { name := written, isRowNumber := isRowNumberType type }
  | .quoted name :: type => some { name, isRowNumber := isRowNumberType type }
  | _ => none

def columnsOf (statement : String) : List Column :=
  (definitionsFrom 0 [] (schemaTokensFrom .plain statement.toList)).filterMap column?

end DatabaseFile

end OpTrace

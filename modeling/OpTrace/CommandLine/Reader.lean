import OpTrace.CommandLine.Argument
import OpTrace.Event.Basic

/-!
# Reading a command line

The words are taken from left to right. An argument that takes a value waits for it; a word of any
shape that is neither a name nor the separator can be that value. An argument is entered, and its
value understood, when the next argument begins or the command line ends, so of two mistakes the
one that is noticed first need not stand first: an unknown name is noticed at once, a bad value
later.

The words behind the name of a command belong to the command. They are read to the end before what
stands in front of the command is entered.
-/

namespace OpTrace

/-- Why a command line asks for nothing that can be done. -/
inductive UsageError where
  /-- a name that is not known at its place, or an operand too many -/
  | unknownArgument (word : String)
  /-- a value that is not there, is empty, or is none of the words allowed -/
  | invalidValue (setting : Setting)
  /-- a value that is no number of the range -/
  | badNumber (value : String)
  /-- a command without its operand -/
  | missingOperand (verb : Verb)
  /-- a word in the place of a command that names none -/
  | unknownCommand (word : String)
  /-- no command behind the arguments of the program -/
  | missingCommand
  /-- an argument that is given twice -/
  | repeatedArgument (name : ArgName)
  /-- a value for an argument that takes none -/
  | unneededValue (switch : Switch)
  /-- help was asked for -/
  | help
  /-- an empty command line, which asks for help in its own way -/
  | nothingAsked
  /-- the version was asked for -/
  | version
  deriving DecidableEq, Repr

abbrev UsageResult (α : Type) := Except UsageError α

/-- The number that decimal digits write; there must be one at least. -/
def naturalOfDigits? (digits : List Char) : Option Nat :=
  if digits ≠ [] ∧ digits.all (·.isDigit) then
    some (digits.foldl (fun n c ↦ 10 * n + (c.toNat - '0'.toNat)) 0)
  else none

/-- Reads a signed number of 64 bits: digits, perhaps behind a sign. -/
def readOpId (word : String) : UsageResult OpId :=
  let number? : Option Int := match word.toList with
    | '+' :: digits => (naturalOfDigits? digits).map Int.ofNat
    | '-' :: digits => (naturalOfDigits? digits).map fun n ↦ -Int.ofNat n
    | digits => (naturalOfDigits? digits).map Int.ofNat
  match number? with
  | some n => if -Int.pow 2 63 ≤ n ∧ n < Int.pow 2 63 then .ok n else .error (.badNumber word)
  | none => .error (.badNumber word)

/-- Reads an unsigned number of 64 bits: digits, perhaps behind a plus sign. -/
def readCount (word : String) : UsageResult Nat :=
  let number? : Option Nat := match word.toList with
    | '+' :: digits => naturalOfDigits? digits
    | digits => naturalOfDigits? digits
  match number? with
  | some n => if n < Nat.pow 2 64 then .ok n else .error (.badNumber word)
  | none => .error (.badNumber word)

/-- Reads the name of a file, which is not empty. -/
def readPath (setting : Setting) (word : String) : UsageResult String :=
  if word = "" then .error (.invalidValue setting) else .ok word

def readChoice {α : Type} (setting : Setting) (ofName? : String → Option α) (word : String) :
    UsageResult α :=
  match ofName? word with
  | some a => .ok a
  | none => .error (.invalidValue setting)

/-- The arguments that are entered so far. -/
structure Given where
  database : Option String := none
  debug : Bool := false
  /-- the operand of the command that selects by tag -/
  fnTag : Option String := none
  /-- the operand of the commands about one operation -/
  root : Option OpId := none
  only : Option OpId := none
  start : Option OpId := none
  limit : Option Nat := none
  sort : Option SortOrder := none
  byCategory : Bool := false
  categories : Option String := none
  output : Option String := none
  format : Option ReportFormat := none
  deriving DecidableEq, Repr

/-- What a value is given to. -/
inductive Slot where
  | setting (setting : Setting)
  | operand (verb : Verb)
  deriving DecidableEq, Repr

namespace Given

/-- A value for a setting that has none yet. -/
def once {α : Type} (setting : Setting) (earlier : Option α) (value : UsageResult α) :
    UsageResult (Option α) :=
  match earlier with
  | some _ => .error (.repeatedArgument (.setting setting))
  | none => value.map some

def set (given : Given) (setting : Setting) (value : String) : UsageResult Given := do
  match setting with
  | .database =>
    return { given with database := ← once setting given.database (readPath setting value) }
  | .opid => return { given with only := ← once setting given.only (readOpId value) }
  | .startOpid => return { given with start := ← once setting given.start (readOpId value) }
  | .limit => return { given with limit := ← once setting given.limit (readCount value) }
  | .sort =>
    let order := readChoice setting SortOrder.ofName? value
    return { given with sort := ← once setting given.sort order }
  | .categories =>
    return { given with categories := ← once setting given.categories (readPath setting value) }
  | .output => return { given with output := ← once setting given.output (readPath setting value) }
  | .format =>
    let format := readChoice setting ReportFormat.ofName? value
    return { given with format := ← once setting given.format format }

def enter (given : Given) (slot : Slot) (value : String) : UsageResult Given := do
  match slot with
  | .setting setting => given.set setting value
  | .operand .hist => return { given with fnTag := some value }
  | .operand .req | .operand .breakdown => return { given with root := some (← readOpId value) }

def raise (given : Given) (switch : Switch) : UsageResult Given :=
  match switch with
  | .help => .error .help
  | .version => .error .version
  | .debug =>
    if given.debug then .error (.repeatedArgument (.switch switch))
    else .ok { given with debug := true }
  | .byCategory =>
    if given.byCategory then .error (.repeatedArgument (.switch switch))
    else .ok { given with byCategory := true }

def command (given : Given) (verb : Verb) : UsageResult Command :=
  let format := given.format.getD .text
  match verb, given.fnTag, given.root with
  | .hist, some fnTag, _ =>
    .ok (.hist {
      fnTag, only := given.only, start := given.start, limit := given.limit.getD 0
      sort := given.sort, byCategory := given.byCategory, categories := given.categories
      output := given.output, format })
  | .req, _, some root => .ok (.req { root, output := given.output, format })
  | .breakdown, _, some root => .ok (.breakdown { root, categories := given.categories, format })
  | verb, _, _ => .error (.missingOperand verb)

/-- What is asked for by the arguments of the program and those behind the command. An argument
that is known in both places counts behind the command. -/
def invocation (program behind : Given) (verb : Verb) : UsageResult Invocation := do
  return {
    database := (behind.database <|> program.database).getD Invocation.standardDatabase
    debug := program.debug || behind.debug
    command := ← behind.command verb }

end Given

/-- An argument that is not entered yet. -/
inductive Pending where
  /-- its value has not come -/
  | waiting (setting : Setting)
  /-- its value has come -/
  | filled (slot : Slot) (value : String)
  deriving DecidableEq, Repr

/-- How far a command line is read. -/
structure Reading where
  given : Given := {}
  pending : Option Pending := none
  /-- the separator has come -/
  operandsOnly : Bool := false
  /-- the operand has come -/
  operandSeen : Bool := false
  deriving DecidableEq, Repr

namespace Reading

def isWaiting (reading : Reading) : Bool :=
  match reading.pending with
  | some (.waiting _) => true
  | _ => false

def settle (reading : Reading) : UsageResult Reading := do
  match reading.pending with
  | none => return reading
  | some (.waiting setting) => throw (.invalidValue setting)
  | some (.filled slot value) =>
    return { reading with given := ← reading.given.enter slot value, pending := none }

/-- Begins a setting that waits for its value. -/
def await (reading : Reading) (setting : Setting) : UsageResult Reading := do
  return { ← reading.settle with pending := some (.waiting setting) }

/-- Enters a setting with the value that is attached to its name. -/
def attach (reading : Reading) (setting : Setting) (value : String) : UsageResult Reading := do
  let reading ← reading.settle
  return { reading with given := ← reading.given.set setting value }

def raise (reading : Reading) (switch : Switch) : UsageResult Reading := do
  let reading ← reading.settle
  return { reading with given := ← reading.given.raise switch }

/-- Takes a long name and the value attached to it. -/
def takeLong (scope : Scope) (reading : Reading) (long : String) (value : Option String) :
    UsageResult Reading :=
  match scope.ofLong? long, value with
  | none, _ => .error (.unknownArgument ("--" ++ long))
  | some (.switch switch), none => reading.raise switch
  | some (.switch switch), some _ => .error (.unneededValue switch)
  | some (.setting setting), none => reading.await setting
  | some (.setting setting), some value => reading.attach setting value

/-- The value that is attached to a letter; an equals sign between them is no part of it. -/
def attached : List Char → Option String
  | [] => none
  | '=' :: value => some (String.ofList value)
  | value => some (String.ofList value)

/-- Takes letters up to the first that takes a value; what follows that one is its value. -/
def takeLetters (scope : Scope) (reading : Reading) : List Char → UsageResult Reading
  | [] => .ok reading
  | letter :: rest =>
    match scope.ofLetter? letter with
    | none => .error (.unknownArgument (String.ofList ['-', letter]))
    | some (.switch switch) => do takeLetters scope (← reading.raise switch) rest
    | some (.setting setting) =>
      match attached rest with
      | none => reading.await setting
      | some value => reading.attach setting value

/-- Takes an operand. A command takes one; the program takes none, so there the word is meant as
the name of a command. -/
def takeOperand (scope : Scope) (reading : Reading) (word : String) : UsageResult Reading := do
  match scope with
  | .program =>
    if reading.operandsOnly && isCommandWord word then throw (.unknownArgument word)
    else throw (.unknownCommand word)
  | .command verb =>
    if reading.operandSeen then throw (.unknownArgument word)
    else
      return { ← reading.settle with
        pending := some (.filled (.operand verb) word), operandSeen := true }

/-- Takes a word that is no name: the value that is waited for, or else an operand. -/
def takePlain (scope : Scope) (reading : Reading) (word : String) : UsageResult Reading :=
  match reading.pending with
  | some (.waiting setting) =>
    .ok { reading with pending := some (.filled (.setting setting) word) }
  | _ => reading.takeOperand scope word

def take (scope : Scope) (reading : Reading) (word : String) : UsageResult Reading :=
  if reading.operandsOnly then reading.takeOperand scope word
  else
    match Shape.ofWord word with
    | .separator => .ok { reading with operandsOnly := true }
    | .long name value => reading.takeLong scope name value
    | .letters letters => reading.takeLetters scope letters
    | .plain => reading.takePlain scope word

end Reading

namespace Invocation

def readCommand (verb : Verb) (words : List String) : UsageResult Given := do
  let reading ← words.foldlM (Reading.take (.command verb)) {}
  let given := (← reading.settle).given
  let _ ← given.command verb
  return given

/-- Answers a request for help on the commands that the words name one below the other. No command
has commands of its own. -/
def helpOn : List String → UsageError
  | [] => .help
  | [word] => if isCommandWord word then .help else .unknownCommand word
  | word :: next :: _ => .unknownCommand (if isCommandWord word then next else word)

/-- Reads the words from a place in front of the command. -/
def readFrom (reading : Reading) : List String → UsageResult Invocation
  | [] => do
    let given := (← reading.settle).given
    if given = {} then throw .nothingAsked else throw .missingCommand
  | word :: rest =>
    if reading.operandsOnly || reading.isWaiting then do
      readFrom (← reading.take .program word) rest
    else if word = helpWord then .error (helpOn rest)
    else
      match Verb.ofName? word with
      | none => do readFrom (← reading.take .program word) rest
      | some verb => do
        let behind ← readCommand verb rest
        Given.invocation (← reading.settle).given behind verb

/-- Reads a command line, without the name of the program. -/
def ofWords (words : List String) : UsageResult Invocation := readFrom {} words

end Invocation

end OpTrace

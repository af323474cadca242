import OpTrace.CommandLine.Basic

/-!
# Arguments

The words of a command line are commands, operands and named arguments. A named argument has a long
name behind two hyphens and perhaps a letter behind one; some of them take a value. Which names are
known depends on the place: some belong to the program as a whole and are known everywhere, the
others belong to a command and are known behind its name.
-/

namespace OpTrace

/-- The names of the commands. -/
inductive Verb where
  | hist
  | req
  | breakdown
  deriving DecidableEq, Repr

def Verb.ofName? : String → Option Verb
  | "hist" => some hist
  | "req" => some req
  | "breakdown" => some breakdown
  | _ => none

/-- The word that asks for help in the place of a command. -/
def helpWord : String := "help"

/-- Does the word stand for a command, or for the request for help? -/
def isCommandWord (word : String) : Bool := (Verb.ofName? word).isSome || word = helpWord

/-- The named arguments that stand alone. -/
inductive Switch where
  | debug
  | help
  | version
  | byCategory
  deriving DecidableEq, Repr

/-- The named arguments that take a value. -/
inductive Setting where
  | database
  | opid
  | startOpid
  | limit
  | sort
  | categories
  | output
  | format
  deriving DecidableEq, Repr

/-- The named arguments. -/
inductive ArgName where
  | switch (switch : Switch)
  | setting (setting : Setting)
  deriving DecidableEq, Repr

namespace ArgName

def long : ArgName → String
  | switch .debug => "debug"
  | switch .help => "help"
  | switch .version => "version"
  | switch .byCategory => "sm-breakdown"
  | setting .database => "db"
  | setting .opid => "opid"
  | setting .startOpid => "start-opid"
  | setting .limit => "limit"
  | setting .sort => "sort"
  | setting .categories => "categories"
  | setting .output => "output"
  | setting .format => "format"

def letter? : ArgName → Option Char
  | switch .help => some 'h'
  | switch .version => some 'V'
  | setting .database => some 'd'
  | setting .limit => some 'n'
  | setting .output => some 'o'
  | _ => none

end ArgName

/-- A place on the command line: in front of the command, or behind it. -/
inductive Scope where
  | program
  | command (verb : Verb)
  deriving DecidableEq, Repr

namespace Scope

/-- The switches that are known at the place. -/
def switches : Scope → List Switch
  | program => [.debug, .help, .version]
  | command .hist => [.debug, .help, .byCategory]
  | command .req | command .breakdown => [.debug, .help]

def settings : Scope → List Setting
  | program => [.database]
  | command .hist =>
    [.database, .opid, .startOpid, .limit, .sort, .categories, .output, .format]
  | command .req => [.database, .output, .format]
  | command .breakdown => [.database, .categories, .format]

def names (scope : Scope) : List ArgName :=
  scope.switches.map .switch ++ scope.settings.map .setting

def ofLong? (scope : Scope) (long : String) : Option ArgName :=
  scope.names.find? (·.long = long)

def ofLetter? (scope : Scope) (letter : Char) : Option ArgName :=
  scope.names.find? (·.letter? = some letter)

end Scope

/-- The shapes of the words on a command line. -/
inductive Shape where
  /-- two hyphens alone: only operands follow -/
  | separator
  /-- a long name, and the value behind an equals sign if there is one -/
  | long (name : String) (value : Option String)
  /-- letters behind a hyphen, the last of which may be followed by its value -/
  | letters (letters : List Char)
  /-- any other word, a single hyphen included -/
  | plain
  deriving DecidableEq, Repr

namespace Shape

/-- Splits a long name from its value, which begins behind the first equals sign. -/
def splitLong (word : List Char) : Shape :=
  let name := word.takeWhile (· ≠ '=')
  match word.dropWhile (· ≠ '=') with
  | [] => .long (String.ofList name) none
  | _ :: value => .long (String.ofList name) (some (String.ofList value))

def ofWord (word : String) : Shape :=
  match word.toList with
  | ['-', '-'] => .separator
  | '-' :: '-' :: name => splitLong name
  | '-' :: letter :: more => .letters (letter :: more)
  | _ => .plain

end Shape

end OpTrace

import OpTrace.CommandLine.Reader

/-!
# Usage

What is said of a command line that asks for nothing that can be done: help and the version go to
the reader's screen, mistakes are complaints with a hint at the help.
-/

namespace OpTrace

def Verb.name : Verb → String
  | hist => "hist"
  | req => "req"
  | breakdown => "breakdown"

@[simp] theorem Verb.ofName?_name (verb : Verb) : ofName? verb.name = some verb := by
  cases verb <;> rfl

namespace UsageError

def versionText : String := "perfc-trace 0.1.0\n"

def helpText : String :=
  "Reconstruct call trees and latency breakdowns from perf-counter databases\n\n" ++
  "Usage: perfc-trace [OPTIONS] <COMMAND>\n\n" ++
  "Commands:\n" ++
  "  hist <FN_TAG>     Time per opid for one fn_tag, optionally broken down by sub-module\n" ++
  "  req <OPID>        Call tree of one request\n" ++
  "  breakdown <OPID>  Sub-module time breakdown of one request\n" ++
  "  help              Print this message\n\n" ++
  "Options:\n" ++
  "  -d, --db <DB>              Perf-counter database to read [default: cortxfs_perfc.db]\n" ++
  "      --debug                Say more about what is done\n" ++
  "  -h, --help                 Print help\n" ++
  "  -V, --version              Print version\n\n" ++
  "Options of hist:\n" ++
  "      --opid <OPID>          Only this opid\n" ++
  "      --start-opid <OPID>    Skip forward to the first opid that is not below this one\n" ++
  "  -n, --limit <N>            Maximum number of opids (0 = unbounded)\n" ++
  "      --sort <ORDER>         Sort by duration [possible values: asc, desc]\n" ++
  "      --sm-breakdown         Sub-module time per opid instead of plain durations\n\n" ++
  "Options of several commands:\n" ++
  "      --categories <FILE>    Category table that replaces the standard one\n" ++
  "  -o, --output <FILE>        Write a chart (hist) or a graph (req) to this file\n" ++
  "      --format <FORMAT>      Output format [possible values: text, json, csv]\n"

def complaint : UsageError → String
  | unknownArgument word => s!"unexpected argument '{word}' found"
  | invalidValue setting => s!"missing or invalid value for '--{(ArgName.setting setting).long}'"
  | badNumber value => s!"invalid number '{value}'"
  | missingOperand verb => s!"'{verb.name}' needs an argument"
  | unknownCommand word => s!"unrecognized subcommand '{word}'"
  | missingCommand => "a subcommand is required"
  | repeatedArgument name => s!"the argument '--{name.long}' cannot be used multiple times"
  | unneededValue switch => s!"'--{(ArgName.switch switch).long}' takes no value"
  | help | nothingAsked | version => ""

def ending : UsageError → Ending
  | help => { status := 0, stdout := helpText, stderr := "" }
  | version => { status := 0, stdout := versionText, stderr := "" }
  | nothingAsked => { status := 2, stdout := "", stderr := helpText }
  | error =>
    { status := 2
      stdout := ""
      stderr := "error: " ++ error.complaint ++ "\n\nFor more information, try '--help'.\n" }

end UsageError

end OpTrace

import OpTrace.CommandLine.Answer
import OpTrace.CommandLine.Place

/-!
# Running in a directory

A run reads the database and the text that its invocation names, and may write one text. What it
leaves behind is the directory with that text in it, and with the files that opening the database
has made.
-/

namespace OpTrace

namespace Directory

/-- The files that an invocation reads, and the directory once they are read. -/
def resources (directory : Directory) (invocation : Invocation) : Resources × Directory :=
  let (database, opened) := directory.openDatabase invocation.database
  let place := if invocation.readsTableFirst then directory else opened
  let categories := match invocation.categories? with
    | some path => place.readText path
    | none => .error .missing
  let resources := { database, categories }
  (resources, if invocation.opensDatabase resources then opened else directory)

/-- Ends a run whose text goes to a place. A device may show it. -/
def deliver (directory : Directory) (ending : Ending) (place : Place) (content : String) :
    Ending × Directory :=
  match directory.standing place with
  | .device .output => ({ ending with stdout := ending.stdout ++ content }, directory)
  | .device .messages => ({ ending with stderr := content ++ ending.stderr }, directory)
  | .device _ => (ending, directory)
  | _ => (ending, directory.write place content)

/-- Runs an invocation: how it ends, and the directory behind it. -/
def run (directory : Directory) (invocation : Invocation) : Ending × Directory :=
  let (resources, directory) := directory.resources invocation
  match invocation.run resources with
  | .error failure => (failure.ending, directory)
  | .ok answer =>
    match answer.file with
    | none => (answer.ending none, directory)
    | some file =>
      match directory.target file.path with
      | .ok place => directory.deliver (answer.ending none) place file.content
      | .error error => (answer.ending (some error), directory)

end Directory

end OpTrace

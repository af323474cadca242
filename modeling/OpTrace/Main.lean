import OpTrace.CommandLine.Answer
import OpTrace.CommandLine.Usage
import OpTrace.DatabaseFile.Opening

/-!
# The program

Reads the files that a command line names, answers it, writes the file that the answer brings, and
ends as the answer says.
-/

namespace OpTrace

/-- The number of an error of the system. Some calls give it with the sign turned. -/
def systemNumber (code : UInt32) : UInt32 := min code (0 - code)

def FileError.ofIO (error : IO.Error) : FileError :=
  match error with
  | .noFileOrDirectory .. => .missing
  | .inappropriateType _ code _ => if systemNumber code = 20 then .notFolder else .isFolder
  | .invalidArgument _ code _ =>
    if systemNumber code = 36 then .nameTooLong else .other (toString error)
  | .resourceExhausted _ code _ =>
    if systemNumber code = 28 then .noSpace else .other (toString error)
  | .noSuchThing _ code _ =>
    if systemNumber code = 6 then .noDevice else .other (toString error)
  | _ => .other (toString error)

def readBytes (path : String) : IO (Except FileError ByteArray) := do
  try return .ok (← IO.FS.readBinFile path) catch error => return .error (FileError.ofIO error)

def readText (path : String) : IO (Except FileError String) := do
  match ← readBytes path with
  | .error error => return .error error
  | .ok bytes =>
    match String.fromUTF8? bytes with
    | some content => return .ok content
    | none => return .error .notText

def leadsThroughFile (path : String) : IO Bool := do
  try
    discard <| IO.FS.Handle.mk path .read
    return false
  catch error => return FileError.ofIO error = .notFolder

/-- The path without the names that two dots take back. A path that leads through a file has no such
form. -/
def simplePath? (path : String) : IO (Option String) := do
  let here ← IO.currentDir
  let start := if path.startsWith "/" then "" else here.toString
  let mut names : List String := []
  for name in (start ++ "/" ++ path).splitOn "/" do
    names := match name with
      | "" | "." => names
      | ".." => names.drop 1
      | name => name :: names
    if ← leadsThroughFile (String.join (names.reverse.map ("/" ++ ·))) then return none
  return some (String.join (names.reverse.map ("/" ++ ·)))

def occupant (path : String) : IO Occupant := do
  match ← readBytes path with
  | .ok bytes => return .bytes bytes
  | .error .isFolder => return .folder
  | .error .missing => return .vacant
  | .error _ => return .barred

def openDatabase (text : String) : IO (Except DatabaseError Database) := do
  match DatabaseSource.ofText text with
  | .error error => return .error error
  | .ok .new => return .ok .empty
  | .ok (.file address) =>
    let some path ← simplePath? (Utf8.decode address.path) | return .error .unopenable
    let main ← occupant path
    let journal ← occupant (path ++ Companion.journal.suffix)
    let log ← occupant (path ++ Companion.log.suffix)
    let index ← occupant (path ++ Companion.index.suffix)
    let lock ← occupant (path ++ Companion.lock.suffix)
    let model ← match address.option? "modeof" with
      | some model => occupant (Utf8.decode model)
      | none => pure .vacant
    let site (which : Companion) : Occupant := match which with
      | .main => main
      | .journal => journal
      | .log => log
      | .index => index
      | .lock => lock
    let (result, made) := (Opening.openDatabase address site fun _ ↦ model.isThere).run.run []
    try
      for (which, bytes) in made do
        IO.FS.writeBinFile (path ++ which.suffix) bytes
      return result
    catch _ => return .error .unopenable

/-- Writes a file, and tells what keeps it from being written. -/
def writeOutput (file : OutputFile) : IO (Option FileError) := do
  try
    let handle ← IO.FS.Handle.mk file.path .write
    handle.putStr file.content
    handle.flush
    return none
  catch error => return some (FileError.ofIO error)

def Invocation.readCategories (invocation : Invocation) : IO (Except FileError String) :=
  match invocation.categories? with
  | some path => readText path
  | none => return .error .missing

def Invocation.resources (invocation : Invocation) : IO Resources := do
  let early ← if invocation.readsTableFirst then invocation.readCategories
    else pure (.error .missing)
  let resources : Resources := { database := .ok .empty, categories := early }
  if ¬ invocation.opensDatabase resources then return resources
  let database ← openDatabase invocation.database
  return {
    database
    categories := ← if invocation.readsTableFirst then pure early else invocation.readCategories }

def Ending.present (ending : Ending) : IO UInt32 := do
  IO.print ending.stdout
  IO.eprint ending.stderr
  return ending.status.toUInt32

/-- Runs an invocation. A report is shown before the file is written. -/
def Invocation.perform (invocation : Invocation) : IO UInt32 := do
  match invocation.run (← invocation.resources) with
  | .error failure => failure.ending.present
  | .ok answer =>
    match answer.file with
    | none => (answer.ending none).present
    | some file =>
      IO.print answer.report
      (← IO.getStdout).flush
      let ending := answer.ending (← writeOutput file)
      IO.eprint ending.stderr
      return ending.status.toUInt32

def perform (words : List String) : IO UInt32 :=
  match Invocation.ofWords words with
  | .error error => error.ending.present
  | .ok invocation => invocation.perform

end OpTrace

def main (words : List String) : IO UInt32 := OpTrace.perform words

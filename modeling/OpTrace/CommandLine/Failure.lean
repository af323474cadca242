import OpTrace.Category.File
import OpTrace.DatabaseFile.Error
import OpTrace.Request

/-!
# Invocations that fail

An invocation fails because of how it was asked, because a file cannot be used, or because a request
about the trace has no answer. A failure is reported with what caused it: the causes follow below
the failure, numbered if there are several, and a cause of several lines stays indented.
-/

namespace OpTrace

/-- Why a file cannot be read or written. -/
inductive FileError where
  | missing
  | isFolder
  /-- a folder was expected on the way to the file -/
  | notFolder
  | nameTooLong
  | noSpace
  /-- a device that is not connected -/
  | noDevice
  /-- the bytes of the file are no text -/
  | notText
  /-- any other reason, in the words of the system -/
  | other (reason : String)
  deriving DecidableEq, Repr

def FileError.message : FileError → String
  | missing => "No such file or directory (os error 2)"
  | isFolder => "Is a directory (os error 21)"
  | notFolder => "Not a directory (os error 20)"
  | nameTooLong => "File name too long (os error 36)"
  | noSpace => "No space left on device (os error 28)"
  | noDevice => "No such device or address (os error 6)"
  | notText => "stream did not contain valid UTF-8"
  | other reason => reason

/-- Why an invocation fails. -/
inductive Failure where
  /-- a call tree has no tabular form -/
  | tabularTree
  /-- a single breakdown has no tabular form -/
  | tabularBreakdown
  | categoriesUnread (path : String) (error : FileError)
  | categoriesUnfit (path : String) (error : CategoryFileError)
  | database (path : String) (error : DatabaseError)
  | request (error : RequestError)
  | output (path : String) (error : FileError)
  deriving DecidableEq, Repr

namespace Failure

def message : Failure → String
  | tabularTree => "CSV output is not available for call trees; use text or json"
  | tabularBreakdown =>
    "CSV output is not available for a single breakdown; use `hist --sm-breakdown`"
  | categoriesUnread path _ => "Failed to read categories file: " ++ path
  | categoriesUnfit path _ => "Failed to parse categories file: " ++ path
  | database path _ => "Failed to open perf-counter database " ++ path
  | request error => error.message
  | output path _ => "Failed to write " ++ path

/-- What caused the failure, and what caused that in turn. -/
def causes : Failure → List String
  | categoriesUnread _ error | output _ error => [error.message]
  | categoriesUnfit _ error => [error.message]
  | database path error => error.chain path
  | request (.store error) => error.engineChain
  | tabularTree | tabularBreakdown | request _ => []

/-- A text whose lines behind the first one are indented. -/
def hang (indent text : String) : String :=
  String.ofList (text.toList.flatMap fun c ↦ if c = '\n' then '\n' :: indent.toList else [c])

/-- The lines of a cause, with its number if it has one. -/
def causeLines (number : Option Nat) (cause : String) : String :=
  match number with
  | none => "    " ++ hang "    " cause ++ "\n"
  | some number => s!"    {number}: " ++ hang "       " cause ++ "\n"

/-- The lines that follow a failure with these causes. -/
def causesText : List String → String
  | [] => ""
  | [cause] => "\nCaused by:\n" ++ causeLines none cause
  | causes =>
    "\nCaused by:\n" ++
      String.join (causes.zipIdx.map fun (cause, index) ↦ causeLines (some index) cause)

def toText (failure : Failure) : String :=
  "Error: " ++ failure.message ++ "\n" ++ causesText failure.causes

end Failure

end OpTrace

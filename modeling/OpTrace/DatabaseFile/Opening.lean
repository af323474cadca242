import OpTrace.DatabaseFile.Address
import OpTrace.DatabaseFile.Reader

/-!
# Opening database files

Beside the file of a database there may be companions of it: a journal, with which a change that
was broken off is taken back, a log of changes that are not in the file yet, an index into that
log, and a folder that tells that the file is in use. A journal that is not empty and does not begin
with a zero byte belongs to a broken change. Who may write takes it back; here no text is a journal
of any change, so there is nothing to do for it.

A log is opened if there is one, or if the head of the file asks for it. It needs an index, which is
made if it is not there. Who may write has brought the file up to date in the end and leaves neither
behind. No text is a log with a change in it, either.
-/

namespace OpTrace

/-- The file of a database and its companions. -/
inductive Companion where
  | main
  | journal
  | log
  | index
  | lock
  deriving DecidableEq, Repr

/-- What follows the name of the file in the name of a companion. -/
def Companion.suffix : Companion → String
  | main => ""
  | journal => "-journal"
  | log => "-wal"
  | index => "-shm"
  | lock => ".lock"

/-- What takes a place at which a file is looked for. -/
inductive Occupant where
  /-- nothing, but something could be put there -/
  | vacant
  /-- nothing that could be used, and nothing can be put there -/
  | barred
  | folder
  | bytes (content : ByteArray)
  | database (db : Database)

namespace Occupant

def isThere : Occupant → Bool
  | vacant | barred => false
  | _ => true

def isFilled : Occupant → Bool
  | vacant | barred => false
  | folder | database _ => true
  | bytes content => !content.isEmpty

/-- A file with a page of a database. A single byte is no page. -/
def hasPages : Occupant → Bool
  | bytes content => 1 < content.size
  | occupant => occupant.isFilled

def firstByte : Occupant → UInt8
  | bytes content => content.data[0]?.getD 0
  | _ => 0

end Occupant

/-- What is found where the companions of a database have their places. -/
abbrev Site := Companion → Occupant

/-- Opening a database makes files as it goes on. They stay if it fails. -/
abbrev Opening := ExceptT DatabaseError (StateM (List (Companion × ByteArray)))

namespace Opening

def make (companion : Companion) (content : ByteArray) : Opening Unit :=
  modify (· ++ [(companion, content)])

/-- The index into a log without changes: twice the same head, with the version of the format, a
sign that it is complete and a checksum, and then a list of readers, of which there is none. -/
def emptyIndex : ByteArray :=
  let head : List UInt8 :=
    [0x18, 0xE2, 0x2D] ++ List.replicate 9 0 ++ [1] ++ List.replicate 27 0 ++
      [0x38, 0x07, 0x18, 0x06, 0x35, 0x93, 0xDB, 0x09]
  let used := head ++ head ++ List.replicate 8 0 ++ List.replicate 16 0xFF
  ⟨(used ++ List.replicate (32768 - used.length) 0).toArray⟩

/-- The bytes of a log in front of its changes. -/
def logHead : Nat := 32

/-- Does a log fit an index without changes? Both bear a number, which is zero in that index. -/
def fitsEmptyIndex (log : Occupant) : Bool :=
  match log with
  | .bytes content => content.size < logHead || (content.extract 16 24).toList.all (· == 0)
  | _ => true

/-- Opens the log. An address may forbid to make an index or to change it. Who uses the file alone
keeps the index in memory. -/
def openLog (address : FileAddress) (site : Site) : Opening Unit := do
  if address.isOn "nolock" ∨ address.fileSystem ∈ [.lockless, .lockFolders] then throw .unusableLog
  let isAlone := address.fileSystem = .exclusive ∧ address.access ≠ .readOnly
  let isIndexFixed := address.isOn "readonly_shm" ∧ ¬ isAlone
  let stays := address.access = .readOnly ∨ isIndexFixed
  match site .log with
  | .barred => throw .unusableLog
  | .vacant => if stays then make .log .empty
  | _ => pure ()
  if ¬ isAlone then
    match site .index with
    | .barred => throw .unusableLog
    | .vacant => if isIndexFixed then throw .unusableLog else if stays then make .index emptyIndex
    | _ => pure ()
  if isIndexFixed ∧ ¬ fitsEmptyIndex (site .log) then throw .foreignLog

/-- Tells others that the file is in use. -/
def lock (address : FileAddress) (site : Site) : Opening Unit := do
  if address.fileSystem = .lockFolders ∧ ¬ address.isOn "nolock" then
    match site .lock with
    | .vacant => pure ()
    | .barred => throw .unlockable
    | _ => throw .locked

/-- Do others seem to be writing? A folder that tells so may be one's own. -/
def isReserved (address : FileAddress) (site : Site) : Bool :=
  address.fileSystem = .lockFolders && (!address.isOn "nolock" || (site .lock).isThere)

/-- Looks for a change that was broken off. -/
def checkJournal (address : FileAddress) (site : Site) (main : Occupant) : Opening Unit := do
  if main.hasPages ∧ (site .journal).firstByte ≠ 0 ∧ address.access = .readOnly ∧
      ¬ isReserved address site then
    throw .interrupted

/-- Opens the file itself. It is made, if that is asked for. -/
def openMain (address : FileAddress) (site : Site) : Opening Occupant :=
  match site .main, address.access with
  | .vacant, .create => do
    make .main .empty
    return .bytes .empty
  | .vacant, _ | .barred, _ => throw .unopenable
  | .folder, .readOnly => throw .folder
  | .folder, _ => throw .unopenable
  | occupant, _ => return occupant

/-- Opens a database. It may name a file whose permissions it would get if it were made; `isKnown`
tells of a path whether anything stands there. A file that is said never to change has no
companions. -/
def openDatabase (address : FileAddress) (site : Site) (isKnown : List UInt8 → Bool) :
    Opening Database := do
  if let some model := address.option? "modeof" then
    if ¬ isKnown model then throw .unknownModel
  let main ← openMain address site
  let isFixed := address.isOn "immutable"
  let isLogFound := main.hasPages && (site .log).isFilled
  if ¬ isFixed then
    lock address site
    checkJournal address site main
    if isLogFound then openLog address site
  match main with
  | .database db => return db
  | .bytes content =>
    if ¬ isFixed ∧ ¬ isLogFound ∧ DatabaseFile.isLogged content then openLog address site
    liftExcept (Database.ofBytes content)
  | _ => throw .unopenable
where
  /-- A step that makes no file. -/
  liftExcept {α : Type} (result : Except DatabaseError α) : Opening α := ExceptT.mk (pure result)

end Opening

end OpTrace

import OpTrace.CommandLine.Failure
import OpTrace.DatabaseFile.Opening

/-!
# Places

A run happens in a directory, which stands in a tree of folders. A place in the tree is given by the
names that lead there from the root. A path names a place: it is followed name by name, and each
name needs a folder in which it is looked up. Names are bytes, which need not be a text.

The directory holds texts and databases, but no folders. Of the tree around it only some folders and
some devices are known. So a run may find nothing else outside, and what it writes there is not seen
again.
-/

namespace OpTrace

/-- What is stored under a name. -/
inductive Entry where
  | text (content : String)
  | database (db : Database)

/-- Names and what is stored under them. -/
structure Directory where
  entries : List (String × Entry)

/-- A place: the names that lead there from the root, last one first. -/
abbrev Place := List (List UInt8)

/-- Devices, by what becomes of a text that is written to them. -/
inductive Device where
  /-- it is lost; nothing can be read -/
  | empty
  /-- it is lost; there is no end to what can be read -/
  | endless
  /-- there is never room for it -/
  | full
  /-- it is shown -/
  | output
  /-- it is mentioned -/
  | messages
  /-- nobody is there to see it -/
  | terminal
  deriving DecidableEq, Repr

def nameOf (s : String) : List UInt8 := s.toUTF8.toList

namespace Place

/-- The place with these names, first one first. -/
def ofNames (names : List String) : Place := (names.map nameOf).reverse

/-- The place of the directory of a run. What its own name is nobody knows, and no path can spell
the name that is given here. -/
def home : Place := ofNames ["tmp", "/"]

def folders : List Place :=
  [[], ["bin"], ["boot"], ["dev"], ["dev", "fd"], ["dev", "pts"], ["dev", "shm"], ["etc"], ["home"],
    ["lib"], ["lib64"], ["media"], ["mnt"], ["opt"], ["proc"], ["proc", "self"],
    ["proc", "self", "fd"], ["root"], ["run"], ["sbin"], ["srv"], ["sys"], ["tmp"], ["usr"],
    ["usr", "bin"], ["usr", "lib"], ["usr", "local"], ["usr", "sbin"], ["usr", "share"], ["var"],
    ["var", "lib"], ["var", "log"], ["var", "tmp"]].map ofNames

/-- The folders in which nothing can be put. -/
def sealed : List Place :=
  [["dev", "fd"], ["proc"], ["proc", "self"], ["proc", "self", "fd"]].map ofNames

def devices : List (Place × Device) :=
  [(["dev", "null"], .empty), (["dev", "zero"], .endless), (["dev", "random"], .endless),
    (["dev", "urandom"], .endless), (["dev", "full"], .full), (["dev", "tty"], .terminal),
    (["dev", "stdin"], .empty), (["dev", "stdout"], .output), (["dev", "stderr"], .messages),
    (["dev", "fd", "0"], .empty), (["dev", "fd", "1"], .output), (["dev", "fd", "2"], .messages),
    (["proc", "self", "fd", "0"], .empty), (["proc", "self", "fd", "1"], .output),
    (["proc", "self", "fd", "2"], .messages)].map fun (names, device) ↦ (ofNames names, device)

/-- The place of a companion of a database at the given place. -/
def companion (place : Place) (which : Companion) : Place :=
  match place with
  | name :: outer => (name ++ nameOf which.suffix) :: outer
  | [] => []

end Place

/-- What stands at a place. -/
inductive Standing where
  | folder
  | entry (entry : Entry)
  | device (device : Device)
  /-- nothing, but something could be put there -/
  | vacant
  /-- nothing, and nothing can be put there -/
  | barred (error : FileError)

namespace Directory

def nameBound : Nat := 255

/-- What stands in a folder under a name. -/
def lookUp (directory : Directory) (folder : Place) (name : List UInt8) : Standing :=
  if nameBound < name.length then .barred .nameTooLong
  else if folder = Place.home then
    match directory.entries.find? fun (other, _) ↦ nameOf other = name with
    | some (_, entry) => .entry entry
    | none => .vacant
  else
    match Place.devices.lookup (name :: folder) with
    | some device => .device device
    | none => if folder ∈ Place.sealed then .barred .missing else .vacant

def standing (directory : Directory) : Place → Standing
  | [] => .folder
  | name :: outer =>
    if name :: outer = Place.home ∨ name :: outer ∈ Place.folders then .folder
    else
      match directory.standing outer with
      | .folder => directory.lookUp outer name
      | .entry _ | .device _ => .barred .notFolder
      | .vacant => .barred .missing
      | .barred error => .barred error

def pathBound : Nat := 4095

def slash : UInt8 := '/'.toUInt8

/-- The place from which a path leads on. -/
def startOf (path : List UInt8) : Place := if path.head? = some slash then [] else Place.home

/-- Follows one name of a path. A name that is empty, or a dot, stays where it is; two dots lead out
of a folder, but not out of the root. -/
def follow (directory : Directory) (place : Place) (name : List UInt8) : Except FileError Place :=
  match directory.standing place with
  | .folder =>
    .ok (if name = [] ∨ name = nameOf "." then place
      else if name = nameOf ".." then place.drop 1
      else name :: place)
  | .entry _ | .device _ => .error .notFolder
  | .vacant => .error .missing
  | .barred error => .error error

def locate (directory : Directory) (path : List UInt8) : Except FileError Place :=
  if path = [] then .error .missing
  else if pathBound < path.length then .error .nameTooLong
  else (path.splitOnP (· = slash)).foldlM directory.follow (startOf path)

def readText (directory : Directory) (path : String) : Except FileError String := do
  match directory.standing (← directory.locate (nameOf path)) with
  | .entry (.text content) => return content
  | .entry (.database _) => throw .notText
  | .device .empty => return ""
  | .device .terminal => throw .noDevice
  | .device _ => throw (.other "out of memory")
  | .folder => throw .isFolder
  | .vacant => throw .missing
  | .barred error => throw error

/-- The place to which a text is written. A path that ends with a slash asks for a folder. -/
def target (directory : Directory) (path : String) : Except FileError Place := do
  let path := nameOf path
  let names := path.reverse.dropWhile (· = slash)
  let place ← directory.locate <|
    if names = [] ∨ pathBound < path.length then path else names.reverse
  if path.getLast? = some slash then throw .isFolder
  match directory.standing place with
  | .entry _ | .vacant => return place
  | .device .full => throw .noSpace
  | .device .terminal => throw .noDevice
  | .device _ => return place
  | .folder => throw .isFolder
  | .barred error => throw error

def write (directory : Directory) (place : Place) (content : String) : Directory :=
  match place with
  | name :: outer =>
    if outer = Place.home then
      let name := Utf8.decode name
      { entries := (name, .text content) :: directory.entries.filter (·.1 ≠ name) }
    else directory
  | [] => directory

/-- The most bytes of the place of a database. Eight more are kept free for its companions. -/
def databasePathBound : Nat := 512

/-- The bytes of a place as a path. -/
def lengthOf (place : Place) : Nat :=
  (place.map fun name ↦ name.length + 1).foldl (· + ·) 0

/-- Follows one name of the path of a database, where two dots take back the name in front of them.
Nothing has to stand at the places on the way, as long as nothing bars them. -/
def followLoosely (directory : Directory) (place : Place) (name : List UInt8) :
    Except DatabaseError Place :=
  let next :=
    if name = [] ∨ name = nameOf "." then place
    else if name = nameOf ".." then place.drop 1
    else name :: place
  match directory.standing next with
  | .barred .missing => .ok next
  | .barred _ => .error .unopenable
  | _ => if databasePathBound ≤ lengthOf next then .error .unopenable else .ok next

/-- The place of a database. The root is no place for one. -/
def databasePlace (directory : Directory) (path : List UInt8) : Except DatabaseError Place := do
  let place ← (path.splitOnP (· = slash)).foldlM directory.followLoosely (startOf path)
  if place = [] ∨ databasePathBound < lengthOf place + 8 then throw .unopenable
  return place

/-- What a database finds at a place. A device has no size, and some cannot be opened that way. -/
def occupant (directory : Directory) (place : Place) : Occupant :=
  match directory.standing place with
  | .folder => .folder
  | .entry (.text content) => .bytes content.toUTF8
  | .entry (.database db) => .database db
  | .device .output | .device .messages | .device .terminal => .barred
  | .device _ => .bytes .empty
  | .vacant => .vacant
  | .barred _ => .barred

def hasAt (directory : Directory) (path : List UInt8) : Bool :=
  match directory.locate path with
  | .ok place =>
    match directory.standing place with
    | .vacant | .barred _ => false
    | _ => true
  | .error _ => false

/-- Opens the database that a text names, and leaves the directory with the files that this made. -/
def openDatabase (directory : Directory) (text : String) :
    Except DatabaseError Database × Directory :=
  match DatabaseSource.ofText text with
  | .error error => (.error error, directory)
  | .ok .new => (.ok .empty, directory)
  | .ok (.file address) =>
    match directory.databasePlace address.path with
    | .error error => (.error error, directory)
    | .ok place =>
      let site (which : Companion) := directory.occupant (place.companion which)
      let (result, made) := (Opening.openDatabase address site directory.hasAt).run.run []
      let put (directory : Directory) (file : Companion × ByteArray) :=
        directory.write (place.companion file.1) (Utf8.decode file.2.toList)
      (result, made.foldl put directory)

end Directory

end OpTrace

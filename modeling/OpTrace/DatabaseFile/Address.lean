import OpTrace.DatabaseFile.Error
import OpTrace.Text.Hexadecimal
import OpTrace.Text.Utf8

/-!
# Addresses of databases

A database is named by a path, or by an address that begins with `file:`. In an address the path may
follow two slashes and a host, which has to be this one; a question mark ends the path, and options
follow; a number sign ends all. A percent sign and two hexadecimal digits stand for a byte, where a
zero byte drops the rest of its part. A database without a name is made anew, and so is one that is
to be in memory only.

The options may choose an access, if it is no wider than the one given, and a file system. The first
option of a name may be asked for by those who open the database.
-/

namespace OpTrace

/-- What may be done to the file of a database. -/
inductive Access where
  | readOnly
  | readWrite
  /-- the file is made, if it is not there -/
  | create
  deriving DecidableEq, Repr

/-- File systems that keep files. They differ in how they keep others away from a file in use. -/
inductive FileSystem where
  | standard
  | exclusive
  /-- nobody is kept away -/
  | lockless
  /-- a folder beside the file tells that it is in use -/
  | lockFolders
  deriving DecidableEq, Repr

def FileSystem.ofName? : String → Option FileSystem
  | "unix" => some standard
  | "unix-excl" => some exclusive
  | "unix-none" => some lockless
  | "unix-dotfile" => some lockFolders
  | _ => none

/-- The file of a database, and how it is to be opened. -/
structure FileAddress where
  /-- the bytes of the path -/
  path : List UInt8
  access : Access := .readOnly
  fileSystem : FileSystem := .standard
  /-- names and values, where values may be any bytes -/
  options : List (String × List UInt8) := []
  deriving DecidableEq, Repr

/-- Where a database comes from. -/
inductive DatabaseSource where
  /-- nowhere: it has no tables yet -/
  | new
  | file (address : FileAddress)
  deriving DecidableEq, Repr

/-- The number with which a text begins, or zero if it does not fit 31 bits. -/
def leadingNumber (chars : List Char) : Nat :=
  let read (base most : Nat) (isDigit : Char → Bool) (chars : List Char) : Nat :=
    let digits := (chars.dropWhile (· = '0')).takeWhile isDigit
    let number := digits.foldl (fun n c ↦ base * n + (hexDigit? c).getD 0) 0
    if digits.length ≤ most ∧ number < Nat.pow 2 31 then number else 0
  let isHexDigit (c : Char) : Bool := (hexDigit? c).isSome
  match chars with
  | '0' :: mark :: rest =>
    if (mark = 'x' ∨ mark = 'X') ∧ rest.head?.any isHexDigit then read 16 8 isHexDigit rest
    else read 10 10 Char.isDigit chars
  | _ => read 10 10 Char.isDigit chars

/-- Does a value turn a switch on? A number does unless its last eight bits are zero. -/
def turnsOn (value : String) : Bool :=
  if value.toList.head?.any Char.isDigit then leadingNumber value.toList % 256 != 0
  else value.map Char.toLower ∈ ["on", "yes", "true"]

namespace FileAddress

def option? (address : FileAddress) (name : String) : Option (List UInt8) :=
  address.options.lookup name

def isOn (address : FileAddress) (name : String) : Bool :=
  (address.option? name).any fun value ↦ turnsOn (Utf8.decode value)

end FileAddress

namespace DatabaseSource

def escapedByte? : List Char → Option Nat
  | high :: low :: _ => do return 16 * (← hexDigit? high) + (← hexDigit? low)
  | _ => none

/-- The bytes of the rest of a part of an address, of which `skip` characters are read already. -/
def bytesFrom (skip : Nat) : List Char → List UInt8
  | [] => []
  | c :: rest =>
    match skip with
    | skip + 1 => bytesFrom skip rest
    | 0 =>
      match if c = '%' then escapedByte? rest else none with
      | some 0 => []
      | some byte => byte.toUInt8 :: bytesFrom 2 rest
      | none => (String.singleton c).toUTF8.toList ++ bytesFrom 0 rest

/-- What stands in front of the first mark, and what behind it. -/
def splitAtMark (mark : Char) (chars : List Char) : List Char × List Char :=
  (chars.takeWhile (· ≠ mark), (chars.dropWhile (· ≠ mark)).drop 1)

/-- The options that follow a path, as names and values. An option without a name is none. -/
def optionsOf (chars : List Char) : List (String × List UInt8) :=
  (chars.splitOnP (· = '&')).filterMap fun option ↦
    let (name, value) := splitAtMark '=' option
    if bytesFrom 0 name = [] then none else some (Utf8.decode (bytesFrom 0 name), bytesFrom 0 value)

/-- What the options have chosen. A database without access to a file is kept in memory. -/
structure Choice where
  access : Option Access := some .readOnly
  fileSystem : String := "unix"
  deriving DecidableEq, Repr

def accessOf? : String → Option (Option Access)
  | "ro" => some (some .readOnly)
  | "rw" => some (some .readWrite)
  | "rwc" => some (some .create)
  | "memory" => some none
  | _ => none

def width : Option Access → Nat
  | none => 0
  | some .readOnly => 1
  | some .readWrite => 2
  | some .create => 3

/-- May the second access take the place of the first one? A database in memory harms nobody, so
nothing is denied to it, even if another access follows. -/
def allows (given wanted : Option Access) : Bool := given = none || width wanted ≤ width given

/-- The file system that keeps its files in memory. -/
def memoryFileSystem : String := "memdb"

/-- The most bytes of a path in that file system. Eight more are kept free for the names of
companions. -/
def memoryPathBound : Nat := 1024

def Choice.take (choice : Choice) (option : String × List UInt8) : Except DatabaseError Choice :=
  let value := Utf8.decode option.2
  match option.1 with
  | "vfs" => .ok { choice with fileSystem := value }
  | "cache" =>
    if value = "shared" ∨ value = "private" then .ok choice else .error (.unknownMode "cache" value)
  | "mode" =>
    match accessOf? value with
    | none => .error (.unknownMode "access" value)
    | some access =>
      if allows choice.access access then .ok { choice with access }
      else .error (.forbiddenAccess value)
  | _ => .ok choice

def isNameless (path : List UInt8) : Bool := path = [] || path = ":memory:".toUTF8.toList

def ofChoice (path : List UInt8) (options : List (String × List UInt8)) (choice : Choice) :
    Except DatabaseError DatabaseSource :=
  match FileSystem.ofName? choice.fileSystem, choice.access with
  | some fileSystem, some access =>
    .ok (if isNameless path then .new else .file { path, access, fileSystem, options })
  | some _, none => .ok .new
  | none, access =>
    if choice.fileSystem ≠ memoryFileSystem then .error (.unknownFileSystem choice.fileSystem)
    else if access.isSome ∧ ¬ isNameless path ∧ memoryPathBound < path.length + 8 then
      .error .unopenable
    else .ok .new

def behindHost (address : List Char) : Except DatabaseError (List Char) :=
  match address with
  | '/' :: '/' :: rest =>
    let host := String.ofList (rest.takeWhile (· ≠ '/'))
    if host = "" ∨ host = "localhost" then .ok (rest.dropWhile (· ≠ '/'))
    else .error (.foreignHost host)
  | address => .ok address

/-- The source that an address names, which stands behind `file:`. -/
def ofAddress (address : List Char) : Except DatabaseError DatabaseSource := do
  let (path, rest) := splitAtMark '?' ((← behindHost address).takeWhile (· ≠ '#'))
  let options := optionsOf rest
  ofChoice (bytesFrom 0 path) options (← options.foldlM Choice.take {})

def ofText (text : String) : Except DatabaseError DatabaseSource :=
  match text.toList with
  | 'f' :: 'i' :: 'l' :: 'e' :: ':' :: address => ofAddress address
  | _ =>
    let path := text.toUTF8.toList
    .ok (if isNameless path then .new else .file { path })

end DatabaseSource

end OpTrace

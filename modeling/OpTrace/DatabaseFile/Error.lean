/-!
# Databases that cannot be used

A database may be impossible to name, to open or to read. Either way the failure comes with its
causes: the database engine's complaint, the reason in it, and the engine's code for the reason.
-/

namespace OpTrace

/-- Why there is no database that can be read. -/
inductive DatabaseError where
  | unopenable
  /-- the path leads to a folder -/
  | folder
  /-- a file cannot be looked at whose permissions a new database should get -/
  | unknownModel
  /-- others use the database -/
  | locked
  /-- there is no way to tell others that the database is in use -/
  | unlockable
  /-- a change was broken off, and what is left of it may not be taken back -/
  | interrupted
  /-- the log of changes cannot be used -/
  | unusableLog
  /-- the log of changes does not fit an index that must not be changed -/
  | foreignLog
  | notDatabase
  /-- a database, but with parts that do not fit each other -/
  | damaged
  /-- a database of a later format -/
  | unsupportedFormat
  /-- the address names another host -/
  | foreignHost (host : String)
  /-- the address asks for an access or for a way to share memory that there is not -/
  | unknownMode (subject mode : String)
  /-- the address asks for more access than is given -/
  | forbiddenAccess (mode : String)
  /-- the address asks for a file system that there is not -/
  | unknownFileSystem (name : String)
  deriving DecidableEq, Repr

namespace DatabaseError

/-- The reason in the words of the database engine. The path is that of the database. -/
def reason (path : String) : DatabaseError → String
  | unopenable => "unable to open database file: " ++ path
  | folder | unknownModel | unlockable => "disk I/O error"
  | locked => "database is locked"
  | interrupted => "attempt to write a readonly database"
  | unusableLog => "unable to open database file"
  | foreignLog => "locking protocol"
  | notDatabase => "file is not a database"
  | damaged => "database disk image is malformed"
  | unsupportedFormat => "unsupported file format"
  | foreignHost host => "invalid uri authority: " ++ host
  | unknownMode subject mode => s!"no such {subject} mode: {mode}"
  | forbiddenAccess mode => "access mode not allowed: " ++ mode
  | unknownFileSystem name => "no such vfs: " ++ name

def code : DatabaseError → String
  | unopenable | unusableLog => "Error code 14: Unable to open the database file"
  | foreignLog => "Error code 15: Database lock protocol error"
  | folder => "Error code 266: Error reading from disk"
  | unknownModel => "Error code 1802: Error invoking fstat to get file metadata"
  | locked => "Error code 5: The database file is locked"
  | unlockable => "Error code 3850: I/O error in advisory file locking layer"
  | interrupted =>
    "Error code 776: Database has hot journal that must be rolled back (requires write access)"
  | notDatabase => "Error code 26: File opened that is not a database file"
  | damaged => "Error code 11: The database disk image is malformed"
  | forbiddenAccess _ => "Error code 3: Access permission denied"
  | unsupportedFormat | foreignHost _ | unknownMode _ _ | unknownFileSystem _ =>
    "Error code 1: SQL error or missing database"

def chain (path : String) (error : DatabaseError) : List String :=
  ["SQLite query failed: " ++ error.reason path, error.reason path, error.code]

end DatabaseError

end OpTrace

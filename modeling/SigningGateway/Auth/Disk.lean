import SigningGateway.Bytes

/-!
# The data directory

The directory that keeps the snapshot of the registrations.  A snapshot is replaced in two steps:
it is written to a scratch file, and the scratch file is renamed.  Each step may fail, and then the
old snapshot stays as it was.
-/

namespace SigningGateway

/-- What lies at a place of the directory. -/
inductive Slot
  | missing
  | file (content : Bytes)
  | directory
  deriving DecidableEq

/-- A failure of the disk while a snapshot is replaced. -/
inductive WriteFault
  /-- The scratch file cannot be written. -/
  | write (reason : String)
  /-- The scratch file cannot be renamed. -/
  | rename (reason : String)
  deriving DecidableEq

/-- The directory under its name: the snapshot and the place of the scratch file. -/
structure Disk where
  name : String
  snapshot : Slot
  scratch : Slot
  deriving DecidableEq

namespace Disk

def empty (name : String) : Disk := ⟨name, .missing, .missing⟩

def snapshotPath (d : Disk) : String := d.name ++ "/registrations.json"

/-- The reason why a directory cannot be read or replaced like a file. -/
def isDirectory : String := "Is a directory (os error 21)"

/-- Writes a new snapshot to the scratch file and puts it in the place of the old one.  What a call
that fails leaves at the place of the scratch file is not told: nobody reads it, and the next call
writes over it, unless it is a directory, which stays one. -/
def replaceSnapshot (d : Disk) (fault : Option WriteFault) (content : Bytes) :
    Except String Disk :=
  match fault, d.scratch, d.snapshot with
  | some (.write reason), _, _ => .error reason
  | _, .directory, _ => .error isDirectory
  | some (.rename reason), _, _ => .error reason
  | none, _, .directory => .error isDirectory
  | none, _, _ => .ok { d with snapshot := .file content, scratch := .missing }

end Disk

end SigningGateway

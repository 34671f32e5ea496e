import EtherChip.Bytes
import EtherChip.Error

/-!
# Storage

Files by path, held in memory. A file can be written wherever its directory exists; a path without
a slash is in the current directory.
-/
namespace EtherChip

/-- Files and the directories that exist. -/
structure Storage where
  directories : List String := []
  files : List (String × Bytes) := []
  deriving Repr

namespace Storage

/-- Directory part of a path: everything before the last slash. -/
def directory (path : String) : String :=
  String.ofList ((path.toList.reverse.dropWhile (· ≠ '/')).drop 1).reverse

/-- Last part of a path: everything after the last slash. -/
def fileName (path : String) : String :=
  String.ofList (path.toList.reverse.takeWhile (· ≠ '/')).reverse

/-- Last parts that name a directory. -/
def directoryNames : List String := ["", ".", ".."]

/-- A file can be written at a path. -/
def hasRoom (s : Storage) (path : String) : Bool :=
  !directoryNames.contains (fileName path) &&
    (!path.toList.contains '/' || s.directories.contains (directory path))

def read (s : Storage) (path : String) : Except ChipError Bytes :=
  match s.files.lookup path with
  | some bs => .ok bs
  | none => .error .noSuchFile

/-- Writes a file, in place of any that is there. -/
def write (s : Storage) (path : String) (bs : Bytes) : Except ChipError Storage :=
  if s.hasRoom path then .ok { s with files := (path, bs) :: s.files.filter fun f => f.1 ≠ path }
  else .error .noSuchFile

end Storage

end EtherChip

import EtherChip.Model
import EtherChip.Text.Quoted

/-!
# Errors

Nothing that a chip does while it runs is an error. What can fail is naming a model and reading or
writing a save file. Each constructor is one cause; `ChipError.message` holds the wording.
-/
namespace EtherChip

/-- Version of the save-file layout that this library reads and writes. -/
def saveFormatVersion : Nat := 1

/-- Why a model name or a save file is refused. -/
inductive ChipError where
  /-- No file can be read or written at the path. -/
  | noSuchFile
  /-- A save file shorter than its fixed header. -/
  | truncated
  /-- The file does not start with the magic bytes. -/
  | badMagic
  /-- The file has another layout version. -/
  | unsupportedVersion (found : Nat)
  /-- The file was saved from another model, or from one with an unknown code. -/
  | modelMismatch (saved : Option ChipModel) (current : ChipModel)
  /-- The compressed part is not a stream, for the given reason. -/
  | decompress (reason : String)
  /-- The payload ends before its last field. -/
  | payloadTooShort
  /-- A name that is no chip model. -/
  | unknownModel (given : String)
  deriving DecidableEq, Repr

def ChipError.message : ChipError → String
  | noSuchFile => "I/O error: No such file or directory (os error 2)"
  | truncated => "save state file too small"
  | badMagic => "invalid save state file (bad magic)"
  | unsupportedVersion found =>
    "unsupported save state version " ++ found.repr ++ " (expected " ++ saveFormatVersion.repr ++ ")"
  | modelMismatch saved current =>
    "chip model mismatch: save=" ++ (saved.map ChipModel.name).getD "?" ++
      " current=" ++ current.name
  | decompress reason => "decompress error: " ++ reason
  | payloadTooShort => "serialize error: io error: unexpected end of file"
  | unknownModel given => "unknown chip model " ++ Text.quoted given ++ " (expected 5100 or 5500)"

/-- A typed model name, or the error that quotes it. -/
def ChipModel.parse (s : String) : Except ChipError ChipModel :=
  match ChipModel.parse? s with
  | some m => .ok m
  | none => .error (.unknownModel s)

end EtherChip

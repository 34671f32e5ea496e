import EtherChip.Error
import EtherChip.SaveState.Layout

/-!
# Save files

```text
magic bytes "WZES"    4 bytes
format version        4 bytes, low byte first
model code            1 byte
payload               compressed stream
```

The payload is compressed by a library, of which nothing is fixed here (`Compression`); whether what
it has compressed comes back is a property of it (`Compression.Inverts`). Payload bytes after the
last field are ignored. Of several faults the one that comes first in the file is reported.
-/
namespace EtherChip

/-- A library that compresses bytes to a stream, and tells what a stream stands for or why it stands
for nothing. -/
structure Compression where
  compress : Bytes → Bytes
  inflate : Bytes → Except String Bytes

/-- What has been compressed comes back. -/
def Compression.Inverts (z : Compression) : Prop := ∀ data, z.inflate (z.compress data) = .ok data

namespace SaveFile

def magic : Bytes := [0x57, 0x5A, 0x45, 0x53]

def headerSize : Nat := 9

def header (model : ChipModel) : Bytes :=
  magic ++ Bytes.littleEndian 4 saveFormatVersion ++ [model.code]

def encode (z : Compression) (state : SaveState) (model : ChipModel) : Bytes :=
  header model ++ z.compress state.toBytes

def decode (z : Compression) (file : Bytes) (expected : ChipModel) : Except ChipError SaveState :=
  if file.length < headerSize then .error .truncated
  else if file.take 4 ≠ magic then .error .badMagic
  else
    let version := Bytes.ofLittleEndian ((file.drop 4).take 4)
    if version ≠ saveFormatVersion then .error (.unsupportedVersion version)
    else
      let code := (file.drop 8).headD 0
      if code ≠ expected.code then .error (.modelMismatch (ChipModel.ofCode? code) expected)
      else match z.inflate (file.drop headerSize) with
        | .error reason => .error (.decompress reason)
        | .ok payload =>
          match SaveState.read? payload with
          | none => .error .payloadTooShort
          | some (state, _) => .ok state

end SaveFile

end EtherChip

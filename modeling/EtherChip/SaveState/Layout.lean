import EtherChip.SaveState.State

/-!
# Layout of a saved state

Byte strings are preceded by their length and the list of sockets by its count, as eight bytes, low
byte first. The position for received bytes takes two bytes. Reading returns what follows the last
field, so a reader can be applied in front of anything.
-/
namespace EtherChip

namespace Layout

def writeCount (n : Nat) : Bytes := Bytes.littleEndian 8 n

/-- A byte string with its length in front. -/
def writeBytes (bs : Bytes) : Bytes := writeCount bs.length ++ bs

def writeSocket (s : SocketState) : Bytes :=
  writeBytes s.registers ++ writeBytes s.tx ++ writeBytes s.rx ++ Bytes.littleEndian 2 s.rxWrite.toNat

/-- The given number of bytes, and what follows them. -/
def readExactly? (n : Nat) (bs : Bytes) : Option (Bytes × Bytes) :=
  let front := bs.take n
  if front.length = n then some (front, bs.drop n) else none

def readCount? (bs : Bytes) : Option (Nat × Bytes) := do
  let (digits, rest) ← readExactly? 8 bs
  return (Bytes.ofLittleEndian digits, rest)

def readBytes? (bs : Bytes) : Option (Bytes × Bytes) := do
  let (len, rest) ← readCount? bs
  readExactly? len rest

def readSocket? (bs : Bytes) : Option (SocketState × Bytes) := do
  let (registers, rest) ← readBytes? bs
  let (tx, rest) ← readBytes? rest
  let (rx, rest) ← readBytes? rest
  let (digits, rest) ← readExactly? 2 rest
  return ({ registers, tx, rx, rxWrite := UInt16.ofNat (Bytes.ofLittleEndian digits) }, rest)

def readSockets? : (n : Nat) → Bytes → Option (List SocketState × Bytes)
  | 0, bs => some ([], bs)
  | n + 1, bs => do
    let (socket, rest) ← readSocket? bs
    let (sockets, rest) ← readSockets? n rest
    return (socket :: sockets, rest)

end Layout

namespace SaveState

def toBytes (s : SaveState) : Bytes :=
  Layout.writeBytes s.common ++ Layout.writeCount s.sockets.length ++ s.sockets.flatMap Layout.writeSocket

/-- Reads a saved state, and gives what follows it. -/
def read? (bs : Bytes) : Option (SaveState × Bytes) := do
  let (common, rest) ← Layout.readBytes? bs
  let (count, rest) ← Layout.readCount? rest
  let (sockets, rest) ← Layout.readSockets? count rest
  return ({ common, sockets }, rest)

end SaveState

end EtherChip

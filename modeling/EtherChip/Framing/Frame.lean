import EtherChip.Framing.Operation

/-!
# Four-byte frames

The W5100 takes frames of an opcode, two address bytes (high byte first) and a data byte. A read
is asked for as soon as its address is complete, so that the value is ready when the data byte is
clocked. A byte that is no opcode is skipped where an opcode is expected. Deselecting drops a frame
in progress.
-/
namespace EtherChip

def writeOpcode : UInt8 := 0xF0

def readOpcode : UInt8 := 0x0F

inductive FrameState where
  /-- An opcode is expected. -/
  | idle
  | addrHigh (write : Bool)
  | addrLow (write : Bool) (high : UInt8)
  | data (write : Bool) (addr : UInt16)
  deriving DecidableEq, Repr, Inhabited

namespace FrameState

/-- One received byte: the operation that it completes, if any, and what is expected next (`decode`). -/
def feed : FrameState → UInt8 → Option MemoryOp × FrameState
  | idle, b =>
    (none, if b = writeOpcode then addrHigh true else if b = readOpcode then addrHigh false else idle)
  | addrHigh write, b => (none, addrLow write b)
  | addrLow write high, b =>
    let addr := wordOf high b
    (if write then none else some (.read addr.toUInt32), data write addr)
  | data write addr, b => (if write then some (.write addr.toUInt32 b) else none, idle)

end FrameState

end EtherChip

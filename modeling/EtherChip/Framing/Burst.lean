import EtherChip.Framing.Operation
import EtherChip.Socket.Ring

/-!
# Bursts

The W5500 takes two address bytes (high byte first), a control byte and then any number of data
bytes until it is deselected. The control byte selects a block in its upper five bits, and bit 2
asks for a write. A read asks for the first byte at the control byte and for one more at every data
byte. A write is collected and comes out as one operation when the chip is deselected.

Block 0 is the whole flat memory; block `4n + 1` is the register bank of socket `n`, `4n + 2` its
transmit ring and `4n + 3` its receive ring. Inside a ring block offsets wrap around.
-/
namespace EtherChip

/-- Longest write that is kept; later bytes are dropped. -/
def maxBurst : Nat := 2048

/-- Base of the blocks that name nothing; no address from there on is mapped. -/
def reservedBase : UInt32 := 0x9000

/-- Flat address of the first byte of a block; only the low five bits of the select count (`REGION_BASE`). -/
def blockBase (select : UInt8) : UInt32 :=
  let index := select.toNat % 32
  if index = 0 then 0
  else if 16 ≤ index then reservedBase
  else match index % 4 with
    | 1 => UInt32.ofNat (0x0400 + index / 4 * 0x100)
    | 2 => UInt32.ofNat (0x4000 + index / 4 * 0x800)
    | 3 => UInt32.ofNat (0x6000 + index / 4 * 0x800)
    | _ => reservedBase

/-- The transmit and receive blocks of the four sockets. -/
def isRingBlock (select : UInt8) : Bool := select.toNat < 16 && 2 ≤ select.toNat % 4

def blockAddr (select : UInt8) (addr : UInt16) : UInt32 :=
  blockBase select + UInt32.ofNat (if isRingBlock select then addr.toNat % ringSize else addr.toNat)

def controlByte (select : UInt8) (write : Bool) : UInt8 :=
  UInt8.ofNat (select.toNat % 32 * 8) + (if write then 4 else 0)

def selectedBlock (control : UInt8) : UInt8 := UInt8.ofNat (control.toNat / 8)

def asksWrite (control : UInt8) : Bool := control.toNat.testBit 2

inductive BurstState where
  /-- An address is expected. -/
  | addrHigh
  | addrLow (high : UInt8)
  | control (addr : UInt16)
  /-- A read; the offset is that of the next byte to ask for. -/
  | reading (block : UInt8) (addr : UInt16)
  /-- A write with the data bytes kept so far. -/
  | writing (block : UInt8) (addr : UInt16) (kept : Array UInt8)
  deriving DecidableEq, Repr, Inhabited

namespace BurstState

/-- One received byte: the operation that it completes, if any, and what is expected next (`decode`). -/
def feed : BurstState → UInt8 → Option MemoryOp × BurstState
  | addrHigh, b => (none, addrLow b)
  | addrLow high, b => (none, control (wordOf high b))
  | control addr, b =>
    let block := selectedBlock b
    if asksWrite b then (none, writing block addr #[])
    else (some (.read (blockAddr block addr)), reading block (addr + 1))
  | reading block addr, _ => (some (.read (blockAddr block addr)), reading block (addr + 1))
  | writing block addr kept, b =>
    (none, writing block addr (if kept.size < maxBurst then kept.push b else kept))

/-- What comes out when the chip is deselected: a write that has data (`deselect`). -/
def finish : BurstState → Option MemoryOp
  | writing block addr kept => if kept.isEmpty then none else some (.burst (blockAddr block addr) kept.toList)
  | _ => none

end BurstState

end EtherChip

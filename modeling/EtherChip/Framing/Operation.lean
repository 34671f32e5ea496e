import EtherChip.Bytes

/-!
# Memory operations

What a framing asks of the chip's memory. Addresses are flat: 32 bits, since a region's base plus a
16-bit offset can pass 65535.
-/
namespace EtherChip

/-- A memory access that a framing has decoded. -/
inductive MemoryOp where
  /-- Read one byte, which becomes the next byte sent. -/
  | read (addr : UInt32)
  | write (addr : UInt32) (value : UInt8)
  | burst (addr : UInt32) (data : Bytes)
  deriving DecidableEq, Repr

end EtherChip

import EtherChip.Socket.Ring

/-!
# Address map

| Addresses | Content |
|---|---|
| 0x0000 to 0x00FF | common registers |
| 0x0400 to 0x07FF | register banks of sockets 0 to 3, 0x100 each |
| 0x4000 to 0x5FFF | transmit rings of sockets 0 to 3, 0x800 each |
| 0x6000 to 0x7FFF | receive rings of sockets 0 to 3, 0x800 each |

Everything else is unmapped. A burst that starts in a ring stays in that ring.
-/
namespace EtherChip

abbrev socketCount : Nat := 4

abbrev commonSize : Nat := 0x100

inductive Target where
  | common (index : Fin commonSize)
  | register (socket : Fin socketCount) (cell : Fin 0x100)
  | tx (socket : Fin socketCount) (offset : RingOffset)
  | rx (socket : Fin socketCount) (offset : RingOffset)
  | unmapped
  deriving DecidableEq, Repr

def route (addr : UInt32) : Target :=
  let a := addr.toNat
  if h : a < 0x100 then .common ⟨a, h⟩
  else if h : 0x400 ≤ a ∧ a < 0x800 then
    .register ⟨(a - 0x400) / 0x100, by simp only [socketCount]; omega⟩ ⟨a % 0x100, by omega⟩
  else if h : 0x4000 ≤ a ∧ a < 0x6000 then
    .tx ⟨(a - 0x4000) / 0x800, by simp only [socketCount]; omega⟩ (RingOffset.ofNat a)
  else if h : 0x6000 ≤ a ∧ a < 0x8000 then
    .rx ⟨(a - 0x6000) / 0x800, by simp only [socketCount]; omega⟩ (RingOffset.ofNat a)
  else .unmapped

def registerAddr (socket cell : Nat) : UInt32 := UInt32.ofNat (0x400 + socket * 0x100 + cell)

def txAddr (socket : Nat) (offset : RingOffset) : UInt32 :=
  UInt32.ofNat (0x4000 + socket * ringSize + offset.val)

def rxAddr (socket : Nat) (offset : RingOffset) : UInt32 :=
  UInt32.ofNat (0x6000 + socket * ringSize + offset.val)

/-- Address of byte `i` of a burst: around the ring in which the burst starts, and upward
elsewhere. -/
def burstAddr (start : UInt32) (i : Nat) : UInt32 :=
  match route start with
  | .tx socket offset => txAddr socket (offset.advance i)
  | .rx socket offset => rxAddr socket (offset.advance i)
  | _ => start + UInt32.ofNat i

end EtherChip

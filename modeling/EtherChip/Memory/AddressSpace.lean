import EtherChip.Memory.Map
import EtherChip.Model
import EtherChip.Socket.Poll

/-!
# Address space

The chip's memory behind its flat addresses: the common registers and the four sockets. Reads of
unmapped addresses give zero and writes to them are dropped. Bit 7 of the common mode register
resets the whole address space and clears itself.
-/
namespace EtherChip

def commonMode : Fin commonSize := ⟨0, by decide⟩

/-- Common registers with a power-on value other than zero: retry time and count, and buffer sizes
or the link and version registers of the model. -/
def commonPowerOnValues : ChipModel → List (Nat × UInt8)
  | .w5100 => [(0x17, 0x07), (0x18, 0xD0), (0x19, 0x08), (0x1A, 0x55), (0x1B, 0x55)]
  | .w5500 => [(0x19, 0x07), (0x1A, 0xD0), (0x1B, 0x08), (0x2E, 0xBF), (0x39, 0x04)]

def commonPowerOn (model : ChipModel) : Vector UInt8 commonSize :=
  (commonPowerOnValues model).foldl (fun cells entry => cells.setIfInBounds entry.1 entry.2)
    (Vector.replicate commonSize 0)

structure AddressSpace where
  model : ChipModel
  config : NetConfig
  common : Vector UInt8 commonSize
  sockets : Vector Engine socketCount
  deriving DecidableEq

namespace AddressSpace

def powerOn (model : ChipModel) (config : NetConfig) : AddressSpace :=
  { model := model, config := config, common := commonPowerOn model,
    sockets := #v[.powerOn, .powerOn, .powerOn, .powerOn] }

def socket? (m : AddressSpace) (n : Nat) : Option Engine := m.sockets[n]?

def read (m : AddressSpace) (addr : UInt32) : UInt8 :=
  match route addr with
  | .common i => m.common.get i
  | .register socket cell => (m.sockets.get socket).readRegister cell.val
  | .tx socket offset => (m.sockets.get socket).tx.get offset
  | .rx socket offset => (m.sockets.get socket).rx.get offset
  | .unmapped => 0

variable {ν : Type} [NetHost ν]

/-- Changes every socket, in the order of their numbers. -/
def forSockets (m : AddressSpace) (f : Fin socketCount → Engine → StateM ν Engine) : StateM ν AddressSpace := do
  let a ← f 0 m.sockets[0]
  let b ← f 1 m.sockets[1]
  let c ← f 2 m.sockets[2]
  let d ← f 3 m.sockets[3]
  return { m with sockets := #v[a, b, c, d] }

def setSocket (m : AddressSpace) (n : Fin socketCount) (e : Engine) : AddressSpace :=
  { m with sockets := m.sockets.set n.val e n.isLt }

def setCommon (m : AddressSpace) (i : Fin commonSize) (value : UInt8) : AddressSpace :=
  { m with common := m.common.set i.val value i.isLt }

/-- Closes every socket and restores power-on values. -/
def reset (m : AddressSpace) : StateM ν AddressSpace :=
  forSockets { m with common := commonPowerOn m.model } fun _ e => e.reset

/-- Bit 7 of a value for the common mode register asks for a reset. -/
def asksReset (value : UInt8) : Bool := 128 ≤ value

def write (m : AddressSpace) (addr : UInt32) (value : UInt8) : StateM ν AddressSpace := do
  match route addr with
  | .common i =>
    if i = commonMode ∧ asksReset value then
      return (← m.reset).setCommon commonMode (value &&& 0x7F)
    return m.setCommon i value
  | .register socket cell =>
    return m.setSocket socket (← (m.sockets.get socket).writeRegister m.config cell.val value)
  | .tx socket offset => return m.setSocket socket ((m.sockets.get socket).storeTx offset value)
  | .rx socket offset => return m.setSocket socket ((m.sockets.get socket).storeRx offset value)
  | .unmapped => return m

/-- Writes the bytes of a burst from byte `i` on. -/
def writeBurstFrom (m : AddressSpace) (start : UInt32) (i : Nat) : Bytes → StateM ν AddressSpace
  | [] => return m
  | b :: bs => do
    let m ← m.write (burstAddr start i) b
    m.writeBurstFrom start (i + 1) bs

/-- Writes a burst, one byte after the other. -/
def writeBurst (m : AddressSpace) (start : UInt32) (data : Bytes) : StateM ν AddressSpace :=
  m.writeBurstFrom start 0 data

/-- Every socket looks at its host socket once (`step_sockets`). -/
def poll (m : AddressSpace) : StateM ν AddressSpace := m.forSockets fun _ e => e.poll

def save (m : AddressSpace) : SaveState :=
  { common := m.common.toList, sockets := m.sockets.toList.map Engine.save }

/-- Takes over a saved state: missing registers have their power-on values, missing sockets are as
after power-on with empty rings, and what is too much is ignored (`load_state`). -/
def load (m : AddressSpace) (state : SaveState) : StateM ν AddressSpace :=
  forSockets { m with common := overlay (commonPowerOn m.model) 0 (state.common.take commonSize) }
    fun n e => e.load (state.sockets[n.val]?.getD {})

end AddressSpace

end EtherChip

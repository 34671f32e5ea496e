import EtherChip.Host.Socket
import EtherChip.Net.Config
import EtherChip.SaveState.State
import EtherChip.Socket.Registers

/-!
# Socket engine

One of the chip's sockets: its register bank, its two rings, its status, and the host socket behind
it. This module has the state and what concerns the chip alone: the ring pointers held in
registers, plain register writes, and taking received bytes into the receive ring.
`Socket.Command` has the commands and `Socket.Poll` what happens at every step.
-/
namespace EtherChip

structure Engine where
  regs : RegisterBank := .powerOn
  tx : Ring := .empty
  rx : Ring := .empty
  /-- Where the next received byte is stored; the firmware does not see it. -/
  rxWrite : RingOffset := RingOffset.ofNat 0
  status : Status := .closed
  /-- Protocol of the open socket. -/
  protocol : Option Protocol := none
  host : HostSocket := .none
  /-- Transmit position that a SEND on a stream has yet to reach. -/
  sendEnd : Option RingOffset := none
  deriving DecidableEq

namespace Engine

def powerOn : Engine := {}

instance : Inhabited Engine := ⟨powerOn⟩

/-! ## Pointers -/

/-- Where the chip reads the transmit ring. -/
def txRead (e : Engine) : RingOffset := e.regs.pointer Cell.txRead

/-- Where the firmware writes the transmit ring. -/
def txWrite (e : Engine) : RingOffset := e.regs.pointer Cell.txWrite

/-- Where the firmware reads the receive ring. -/
def rxRead (e : Engine) : RingOffset := e.regs.pointer Cell.rxRead

/-- Bytes that the firmware has not read. -/
def unread (e : Engine) : Nat := RingOffset.distance e.rxRead e.rxWrite

/-- Bytes that the receive ring can take without running over unread ones (`rx_free`). -/
def rxRoom (e : Engine) : Nat := ringSize - 1 - e.unread

/-- Shows how many bytes the firmware may store in the transmit ring (`update_free_size`). -/
def showFree (e : Engine) : Engine :=
  let used := RingOffset.distance e.txRead e.txWrite
  { e with regs := e.regs.setWord Cell.txFree (UInt16.ofNat (ringSize - used)) }

/-- Shows how many bytes the firmware has not read (`update_received_size`). -/
def showReceived (e : Engine) : Engine :=
  { e with regs := e.regs.setWord Cell.rxReceived (UInt16.ofNat e.unread) }

def raise (e : Engine) (flag : UInt8) : Engine :=
  { e with regs := e.regs.set Cell.interrupt (e.regs.get Cell.interrupt ||| flag) }

/-- Enters a status, which the status cell shows (`set_status`). -/
def enter (e : Engine) (status : Status) : Engine :=
  { e with status := status, regs := e.regs.set Cell.status status.code }

/-- Both rings become empty, with all pointers at zero. -/
def resetPointers (e : Engine) : Engine :=
  let regs := e.regs.setWord Cell.rxReceived 0
  let regs := regs.setWord Cell.rxRead 0
  let regs := regs.setWord Cell.txRead 0
  let regs := regs.setWord Cell.txWrite 0
  let regs := regs.setWord Cell.txFree (UInt16.ofNat ringSize)
  { e with regs := regs, rxWrite := RingOffset.ofNat 0, sendEnd := none }

/-! ## Registers -/

/-- A register cell as the firmware reads it: commands read as zero (`read_reg`). -/
def readRegister (e : Engine) (cell : Nat) : UInt8 :=
  if cell = Cell.command then 0
  else if cell = Cell.status then e.status.code
  else e.regs.get cell

def readWord (e : Engine) (cell : Nat) : UInt16 :=
  wordOf (e.readRegister cell) (e.readRegister (cell + 1))

/-- Cells that ignore writes: the status, and the pointers and sizes that the chip keeps. -/
def readOnly (cell : Nat) : Bool :=
  cell == Cell.status || cell == Cell.txFree || cell == Cell.txFree + 1 || cell == Cell.txRead ||
    cell == Cell.txRead + 1 || cell == Cell.rxReceived || cell == Cell.rxReceived + 1

/-- High bytes of ring pointers keep three bits. -/
def pointerHigh (value : UInt8) : UInt8 := value &&& 7

/-- A write to a register cell other than the command cell (`write_reg`). Ones clear interrupt flags, and moving
the write position of the transmit ring changes the free size. -/
def store (e : Engine) (cell : Nat) (value : UInt8) : Engine :=
  if cell = Cell.interrupt then
    let flags := e.regs.get Cell.interrupt
    { e with regs := e.regs.set Cell.interrupt (flags &&& (~~~value ||| Interrupt.reserved)) }
  else if readOnly cell then e
  else if cell = Cell.txWrite then
    showFree { e with regs := e.regs.set Cell.txWrite (pointerHigh value) }
  else if cell = Cell.txWrite + 1 then
    showFree { e with regs := e.regs.set (Cell.txWrite + 1) value }
  else if cell = Cell.rxRead then
    { e with regs := e.regs.set Cell.rxRead (pointerHigh value) }
  else { e with regs := e.regs.set cell value }

def storeTx (e : Engine) (o : RingOffset) (value : UInt8) : Engine := { e with tx := e.tx.set o value }

def storeRx (e : Engine) (o : RingOffset) (value : UInt8) : Engine := { e with rx := e.rx.set o value }

/-! ## Receiving -/

/-- Appends bytes to the receive ring and raises the flag for received data. Bytes that do not fit
are refused as a whole, so unread ones are never run over. -/
def deliver? (e : Engine) (data : Bytes) : Option Engine :=
  if e.rxRoom < data.length then none
  else
    let (rx, next) := e.rx.copyIn e.rxWrite data
    some ((showReceived { e with rx := rx, rxWrite := next }).raise Interrupt.received)

/-- Appends bytes to the receive ring, or drops them as a whole. -/
def deliver (e : Engine) (data : Bytes) : Engine := (e.deliver? data).getD e

/-! ## Host socket and saved state -/

variable {ν : Type} [NetHost ν]

def isConnecting (e : Engine) : Bool := e.host.isConnecting

/-- Closes the host socket; the socket is closed. -/
def release (e : Engine) : StateM ν Engine := do
  e.host.close
  return enter { e with host := .none, protocol := none, sendEnd := none } .closed

/-- Closes the host socket and restores power-on values. -/
def reset (e : Engine) : StateM ν Engine := do
  e.host.close
  return powerOn

def save (e : Engine) : SocketState :=
  { registers := e.regs.toBytes, tx := e.tx.toBytes, rx := e.rx.toBytes, rxWrite := e.rxWrite.toWord }

/-- A socket with saved registers and rings, which is always closed. -/
def ofState (state : SocketState) : Engine :=
  { regs := (RegisterBank.ofBytes state.registers).set Cell.status Status.closed.code
    tx := Ring.ofBytes state.tx
    rx := Ring.ofBytes state.rx
    rxWrite := RingOffset.ofWord state.rxWrite }

/-- Closes the host socket and takes over a saved state (`load_state`). -/
def load (e : Engine) (state : SocketState) : StateM ν Engine := do
  e.host.close
  return ofState state

end Engine

end EtherChip

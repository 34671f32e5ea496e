import EtherChip.Chip

/-!
# Bus master

Drives a chip through its lines the way a microcontroller does: one step of the chip per clock
level, most significant bit first, the chip's output sampled while the clock is low. On top of
single transfers stand the frames and bursts of the two models, and flat reads and writes that mean
the same on both.
-/
namespace EtherChip

/-- Actions of a bus master: they change a chip, and the host behind it. -/
abbrev BusM (ν : Type) := StateT Chip (StateM ν)

namespace Master

variable {ν : Type} [NetHost ν]

def setLines (f : Lines → Lines) : BusM ν Unit := modify fun c => { c with lines := f c.lines }

def onChip (f : Chip → StateM ν Chip) : BusM ν Unit := fun c => return ((), ← f c)

def step : BusM ν Unit := onChip Chip.step

def select : BusM ν Unit := do
  setLines fun l => { l with ss := false, sck := false }
  step

def deselect : BusM ν Unit := do
  setLines fun l => { l with ss := true, sck := false }
  step

/-- Sends one bit and gives the level that the chip answers with. -/
def transferBit (level : Bool) : BusM ν Bool := do
  setLines fun l => { l with sck := false, mosi := level }
  step
  let answer := (← get).lines.miso
  setLines fun l => { l with sck := true }
  step
  return answer

/-- Sends one byte and gives the byte that the chip answers with. -/
def transfer (b : UInt8) : BusM ν UInt8 := do
  let answer ← (bitsOf b).mapM transferBit
  setLines fun l => { l with sck := false }
  return ofBits answer

/-- One transaction: sends bytes while the chip is selected, and gives the answers. -/
def transaction (bytes : Bytes) : BusM ν Bytes := do
  select
  let answers ← bytes.mapM transfer
  deselect
  return answers

/-- Lets the chip make steps while it is deselected. -/
def idle (n : Nat) : BusM ν Unit := do
  setLines fun l => { l with ss := true }
  onChip (·.run n)

/-! ## Frames and bursts -/

def writeFrame (addr : UInt16) (value : UInt8) : BusM ν Unit := do
  let _ ← transaction [writeOpcode, highByte addr, lowByte addr, value]

def readFrame (addr : UInt16) : BusM ν UInt8 := do
  let answers ← transaction [readOpcode, highByte addr, lowByte addr, 0]
  return answers.getLastD 0

def writeBurst (addr : UInt16) (block : UInt8) (data : Bytes) : BusM ν Unit := do
  let _ ← transaction ([highByte addr, lowByte addr, controlByte block true] ++ data)

def readBurst (addr : UInt16) (block : UInt8) (len : Nat) : BusM ν Bytes := do
  let answers ← transaction
    ([highByte addr, lowByte addr, controlByte block false] ++ List.replicate len 0)
  return answers.drop 3

/-! ## Flat access -/

/-- Writes bytes from a flat address on, with one frame each. -/
def writeFrames (addr : UInt16) : Bytes → BusM ν Unit
  | [] => return ()
  | b :: bs => do
    writeFrame addr b
    writeFrames (addr + 1) bs

/-- Reads bytes from a flat address on, with one frame each. -/
def readFrames (addr : UInt16) : (len : Nat) → BusM ν Bytes
  | 0 => return []
  | len + 1 => do
    let b ← readFrame addr
    return b :: (← readFrames (addr + 1) len)

/-- Writes bytes from a flat address on, in the framing of the chip. Block 0 of the bursts has base
zero, so it reaches every flat address. -/
def write (addr : UInt16) (data : Bytes) : BusM ν Unit := do
  match (← get).model with
  | .w5100 => writeFrames addr data
  | .w5500 => writeBurst addr 0 data

/-- Reads bytes from a flat address on, in the framing of the chip. -/
def read (addr : UInt16) (len : Nat) : BusM ν Bytes := do
  match (← get).model with
  | .w5100 => readFrames addr len
  | .w5500 => readBurst addr 0 len

def writeByte (addr : UInt16) (value : UInt8) : BusM ν Unit := write addr [value]

def readByte (addr : UInt16) : BusM ν UInt8 := do return (← read addr 1).headD 0

/-- Writes a word, high byte first. -/
def writeWord (addr value : UInt16) : BusM ν Unit := write addr [highByte value, lowByte value]

/-- Reads a word, high byte first. -/
def readWord (addr : UInt16) : BusM ν UInt16 := do
  match ← read addr 2 with
  | [high, low] => return wordOf high low
  | _ => return 0

end Master

end EtherChip

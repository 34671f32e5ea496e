import EtherChip.Bus.Sampler
import EtherChip.Framing.Decoder
import EtherChip.Memory.AddressSpace
import EtherChip.SaveState.File
import EtherChip.SaveState.Storage

/-!
# Chip

The whole controller: lines, bit sampler, framing and memory. At every step the sampler looks at
the lines, a byte that is complete goes to the framing, the operation that it completes is carried
out, and every socket looks at its host socket. The answer to a byte is sent during the next one:
the value read, or zero. Deselecting ends a transaction.
-/
namespace EtherChip

structure Chip where
  lines : Lines
  sampler : Sampler
  decoder : Decoder
  memory : AddressSpace
  /-- The chip was selected at the step before. -/
  wasSelected : Bool
  /-- Steps since power-on or reset. -/
  steps : Nat
  deriving DecidableEq

namespace Chip

def powerOn (model : ChipModel) (config : NetConfig) : Chip :=
  { lines := {}, sampler := {}, decoder := .idle model, memory := .powerOn model config,
    wasSelected := false, steps := 0 }

def model (c : Chip) : ChipModel := c.memory.model

def config (c : Chip) : NetConfig := c.memory.config

def socket? (c : Chip) (n : Nat) : Option Engine := c.memory.socket? n

def read (c : Chip) (addr : UInt32) : UInt8 := c.memory.read addr

variable {ν : Type} [NetHost ν]

def write (c : Chip) (addr : UInt32) (value : UInt8) : StateM ν Chip :=
  return { c with memory := ← c.memory.write addr value }

/-- Carries an operation out, and gives the byte to send next. -/
def execute (m : AddressSpace) (op : MemoryOp) : StateM ν (UInt8 × AddressSpace) :=
  match op with
  | .read addr => return (m.read addr, m)
  | .write addr value => return (0, ← m.write addr value)
  | .burst addr data => return (0, ← m.writeBurst addr data)

/-- Carries out what a framing came up with, if anything. -/
def executeSome (m : AddressSpace) (op : Option MemoryOp) : StateM ν (UInt8 × AddressSpace) :=
  match op with
  | none => return (0, m)
  | some op => execute m op

/-- What the sampler's last look at the lines means for the transaction (`process_transaction`). -/
def transact (c : Chip) : StateM ν Chip := do
  if c.sampler.selected then
    let c := { c with wasSelected := true }
    if !c.sampler.ready then return c
    let (b, sampler) := c.sampler.take
    let (op, decoder) := c.decoder.feed b
    let (answer, memory) ← executeSome c.memory op
    return { c with sampler := sampler.prime answer, decoder := decoder, memory := memory }
  else if c.wasSelected then
    let (_, sampler) := c.sampler.take
    let (op, decoder) := c.decoder.deselect
    let (_, memory) ← executeSome c.memory op
    return { c with sampler := sampler.prime 0, decoder := decoder, memory := memory, wasSelected := false }
  else return c

def step (c : Chip) : StateM ν Chip := do
  let (sampler, lines) := c.sampler.step c.lines
  let c ← transact { c with sampler := sampler, lines := lines }
  return { c with memory := ← c.memory.poll, steps := c.steps + 1 }

def run (c : Chip) : (n : Nat) → StateM ν Chip
  | 0 => return c
  | n + 1 => do (← c.step).run n

/-- Hardware reset: everything but the levels of the input lines is as after power-on. -/
def reset (c : Chip) : StateM ν Chip :=
  return { lines := { c.lines with miso := false }, sampler := {}, decoder := c.decoder.reset,
           memory := ← c.memory.reset, wasSelected := false, steps := 0 }

/-! ## Saved states -/

def save (c : Chip) : SaveState := c.memory.save

/-- Takes over a saved state and ends the transaction in progress. All sockets are closed. -/
def load (c : Chip) (state : SaveState) : StateM ν Chip :=
  return { c with sampler := {}, decoder := c.decoder.reset, wasSelected := false,
                  memory := ← c.memory.load state }

def saveTo (c : Chip) (z : Compression) (storage : Storage) (path : String) : Except ChipError Storage :=
  storage.write path (SaveFile.encode z c.save c.model)

/-- Takes over the state in a save file; a file that is refused changes nothing. -/
def loadFrom (c : Chip) (z : Compression) (storage : Storage) (path : String) : StateM ν (Except ChipError Chip) :=
  match storage.read path >>= fun file => SaveFile.decode z file c.model with
  | .error e => return .error e
  | .ok state => return .ok (← c.load state)

end Chip

end EtherChip

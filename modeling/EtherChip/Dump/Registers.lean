import EtherChip.Chip
import EtherChip.Dump.Ring

/-!
# Register dumps

One line a register: its name, its address in the block, and its bytes. The common registers
differ between the models; the registers of a socket are the same on both.
-/
namespace EtherChip

/-- A register of a block: address, number of bytes, name. -/
structure RegisterName where
  addr : Nat
  width : Nat
  name : String
  deriving DecidableEq, Repr

namespace Dump

def commonNames : ChipModel → List RegisterName
  | .w5100 =>
    [⟨0x00, 1, "MR"⟩, ⟨0x01, 4, "GAR"⟩, ⟨0x05, 4, "SUBR"⟩, ⟨0x09, 6, "SHAR"⟩, ⟨0x0F, 4, "SIPR"⟩,
      ⟨0x15, 1, "IR"⟩, ⟨0x16, 1, "IMR"⟩, ⟨0x17, 2, "RTR"⟩, ⟨0x19, 1, "RCR"⟩, ⟨0x1A, 1, "RMSR"⟩,
      ⟨0x1B, 1, "TMSR"⟩, ⟨0x1C, 2, "PATR"⟩, ⟨0x28, 1, "PTIMER"⟩, ⟨0x29, 1, "PMAGIC"⟩,
      ⟨0x2A, 4, "UIPR"⟩, ⟨0x2E, 2, "UPORT"⟩]
  | .w5500 =>
    [⟨0x00, 1, "MR"⟩, ⟨0x01, 4, "GAR"⟩, ⟨0x05, 4, "SUBR"⟩, ⟨0x09, 6, "SHAR"⟩, ⟨0x0F, 4, "SIPR"⟩,
      ⟨0x13, 2, "INTLEVEL"⟩, ⟨0x15, 1, "IR"⟩, ⟨0x16, 1, "IMR"⟩, ⟨0x17, 1, "SIR"⟩, ⟨0x18, 1, "SIMR"⟩,
      ⟨0x19, 2, "RTR"⟩, ⟨0x1B, 1, "RCR"⟩, ⟨0x1C, 1, "PTIMER"⟩, ⟨0x1D, 1, "PMAGIC"⟩, ⟨0x1E, 6, "PHAR"⟩,
      ⟨0x24, 2, "PSID"⟩, ⟨0x26, 2, "PMRU"⟩, ⟨0x28, 4, "UIPR"⟩, ⟨0x2C, 2, "UPORTR"⟩,
      ⟨0x2E, 1, "PHYCFGR"⟩, ⟨0x39, 1, "VERSIONR"⟩]

def socketNames : List RegisterName :=
  [⟨0x00, 1, "MR"⟩, ⟨0x01, 1, "CR"⟩, ⟨0x02, 1, "IR"⟩, ⟨0x03, 1, "SR"⟩, ⟨0x04, 2, "PORT"⟩,
    ⟨0x06, 6, "DHAR"⟩, ⟨0x0C, 4, "DIPR"⟩, ⟨0x10, 2, "DPORT"⟩, ⟨0x12, 2, "MSSR"⟩, ⟨0x15, 1, "TOS"⟩,
    ⟨0x16, 1, "TTL"⟩, ⟨0x1E, 1, "RXBUF_SIZE"⟩, ⟨0x1F, 1, "TXBUF_SIZE"⟩, ⟨0x20, 2, "TX_FSR"⟩,
    ⟨0x22, 2, "TX_RD"⟩, ⟨0x24, 2, "TX_WR"⟩, ⟨0x26, 2, "RX_RSR"⟩, ⟨0x28, 2, "RX_RD"⟩, ⟨0x2C, 1, "IMR"⟩,
    ⟨0x2D, 2, "FRAG"⟩]

/-- Width of the column of names. -/
def nameColumn : Nat := 10

def registerLine (read : Nat → UInt8) (r : RegisterName) : List Char :=
  let name := r.name.toList
  [' ', ' '] ++ List.replicate (nameColumn - name.length) ' ' ++ name ++ [' ', '(', '0', 'x'] ++
    Text.hexDigits 2 r.addr ++ [')', ' ', '=', ' '] ++
    hexList ((List.range r.width).map fun i => read (r.addr + i)) ++ ['\n']

def registers (read : Nat → UInt8) (names : List RegisterName) : String :=
  String.ofList (names.flatMap (registerLine read))

def statusWord : Status → String
  | .closed => "Closed"
  | .init => "Init"
  | .listen => "Listen"
  | .established => "Established"
  | .udpReady => "UdpReady"

def protocolWord : Protocol → String
  | .tcp => "Tcp"
  | .udp => "Udp"

/-- How a protocol or its absence is shown in a dump. -/
def optionalProtocol : Option Protocol → String
  | some p => "Some(" ++ protocolWord p ++ ")"
  | none => "None"

end Dump

namespace Chip

def dumpCommon (c : Chip) : String :=
  c.model.name ++ " common registers\n" ++
    Dump.registers (fun i => c.memory.common[i]?.getD 0) (Dump.commonNames c.model)

/-- Dump of a socket's registers under a line with its state. -/
def dumpSocket? (c : Chip) (n : Nat) : Option String :=
  (c.socket? n).map fun e =>
    "Socket " ++ n.repr ++ ": " ++ Dump.statusWord e.status ++ " protocol=" ++
      Dump.optionalProtocol e.protocol ++ " rx_write_idx=0x" ++
      String.ofList (Text.hexDigits 3 e.rxWrite.val) ++
      (if e.isConnecting then " (connecting)" else "") ++ "\n" ++
      Dump.registers e.readRegister Dump.socketNames

def dumpTx? (c : Chip) (n : Nat) (start : RingOffset) (len : Nat) : Option String :=
  (c.socket? n).map fun e => Dump.ring e.tx start len

def dumpRx? (c : Chip) (n : Nat) (start : RingOffset) (len : Nat) : Option String :=
  (c.socket? n).map fun e => Dump.ring e.rx start len

def dumpAll (c : Chip) : String :=
  c.dumpCommon ++ String.join ((List.range socketCount).map fun n => (c.dumpSocket? n).getD "")

end Chip

end EtherChip

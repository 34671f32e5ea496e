import EtherChip.Net.Address
import EtherChip.Socket.Ring

/-!
# Register bank of a socket

A bank has 48 populated cells; the cells above read as zero and ignore writes. Words stand high
byte first. Named here are the cells, and the codes of modes, commands, states and interrupts.
-/
namespace EtherChip

abbrev bankSize : Nat := 48

/-! ## Cells -/

namespace Cell

/-- Mode: protocol in the low nibble, bit 7 asks for multicast. -/
def mode : Nat := 0x00
/-- Command; always reads as zero. -/
def command : Nat := 0x01
/-- Interrupt flags; writing a one clears a flag. -/
def interrupt : Nat := 0x02
/-- Status code, read only. -/
def status : Nat := 0x03
def sourcePort : Nat := 0x04
def destAddr : Nat := 0x0C
def destPort : Nat := 0x10
/-- Free bytes in the transmit ring, read only. -/
def txFree : Nat := 0x20
/-- Where the chip reads the transmit ring, read only. -/
def txRead : Nat := 0x22
/-- Where the firmware writes the transmit ring. -/
def txWrite : Nat := 0x24
/-- Unread bytes in the receive ring, read only. -/
def rxReceived : Nat := 0x26
/-- Where the firmware reads the receive ring. -/
def rxRead : Nat := 0x28

end Cell

/-! ## Codes in cells -/

inductive Protocol where
  | tcp
  | udp
  deriving DecidableEq, Repr

namespace Protocol

/-- Code in the low nibble of the mode cell. -/
def code : Protocol → UInt8
  | tcp => 0x01
  | udp => 0x02

/-- The protocol that a mode byte selects with its low nibble. -/
def ofMode? (mode : UInt8) : Option Protocol :=
  let selected := mode &&& 0x0F
  if selected = tcp.code then some tcp else if selected = udp.code then some udp else none

end Protocol

/-- Bit 7 of a mode byte asks a datagram socket to join the destination group. -/
def wantsMulticast (mode : UInt8) : Bool := mode &&& 0x80 != 0

inductive Command where
  | openSocket
  | listen
  | connect
  | disconnect
  | close
  | send
  | receive
  deriving DecidableEq, Repr

namespace Command

def code : Command → UInt8
  | openSocket => 0x01
  | listen => 0x02
  | connect => 0x04
  | disconnect => 0x08
  | close => 0x10
  | send => 0x20
  | receive => 0x40

/-- The command that a byte gives; other bytes give none. -/
def ofCode? (b : UInt8) : Option Command :=
  [openSocket, listen, connect, disconnect, close, send, receive].find? (·.code == b)

@[simp] theorem ofCode?_code (c : Command) : ofCode? c.code = some c := by
  cases c <;> rfl

end Command

/-- State of a socket as the firmware sees it. -/
inductive Status where
  | closed
  | init
  | listen
  | established
  | udpReady
  deriving DecidableEq, Repr, Inhabited

def Status.code : Status → UInt8
  | closed => 0x00
  | init => 0x13
  | listen => 0x14
  | established => 0x17
  | udpReady => 0x22

namespace Interrupt

/-- Flag: data has arrived. -/
def received : UInt8 := 0x04
/-- Flag: a SEND has been completed. -/
def sendOk : UInt8 := 0x10
/-- Bits that a write cannot clear. -/
def reserved : UInt8 := 0xE0

end Interrupt

/-! ## Storage -/

/-- Power-on contents: an all-ones hardware address, time to live 128, buffer sizes of 2 KB, a
free transmit ring, an all-ones interrupt mask and the default fragment field. -/
def bankPowerOn : Vector UInt8 bankSize :=
  #v[0x00, 0x00, 0x00, 0x00, 0x00, 0x00, 0xFF, 0xFF, 0xFF, 0xFF, 0xFF, 0xFF, 0x00, 0x00, 0x00, 0x00,
    0x00, 0x00, 0x00, 0x00, 0x00, 0x00, 0x80, 0x00, 0x00, 0x00, 0x00, 0x00, 0x00, 0x00, 0x02, 0x02,
    0x08, 0x00, 0x00, 0x00, 0x00, 0x00, 0x00, 0x00, 0x00, 0x00, 0x00, 0x00, 0xFF, 0x40, 0x00, 0x00]

structure RegisterBank where
  cells : Vector UInt8 bankSize
  deriving DecidableEq

namespace RegisterBank

def powerOn : RegisterBank := ⟨bankPowerOn⟩

instance : Inhabited RegisterBank := ⟨powerOn⟩

/-- A cell; unpopulated cells read as zero. -/
def get (r : RegisterBank) (cell : Nat) : UInt8 :=
  if h : cell < bankSize then r.cells[cell] else 0

/-- The bank with one cell replaced; unpopulated cells ignore the write. -/
def set (r : RegisterBank) (cell : Nat) (value : UInt8) : RegisterBank :=
  ⟨r.cells.setIfInBounds cell value⟩

theorem get_of_le (r : RegisterBank) {cell : Nat} (h : bankSize ≤ cell) : r.get cell = 0 :=
  dif_neg (Nat.not_lt.mpr h)

theorem get_set_self (r : RegisterBank) {cell : Nat} (value : UInt8) (h : cell < bankSize) :
    (r.set cell value).get cell = value := by
  simp [get, set, h]

theorem get_set_of_ne (r : RegisterBank) {cell other : Nat} (value : UInt8) (h : other ≠ cell) :
    (r.set cell value).get other = r.get other := by
  unfold get
  split
  · next populated => exact Vector.getElem_setIfInBounds_ne populated h.symm
  · rfl

def word (r : RegisterBank) (cell : Nat) : UInt16 := wordOf (r.get cell) (r.get (cell + 1))

def setWord (r : RegisterBank) (cell : Nat) (value : UInt16) : RegisterBank :=
  (r.set cell (highByte value)).set (cell + 1) (lowByte value)

theorem word_setWord_self (r : RegisterBank) {cell : Nat} (value : UInt16) (h : cell + 1 < bankSize) :
    (r.setWord cell value).word cell = value := by
  rw [word, setWord, get_set_of_ne _ _ (Nat.ne_of_lt (Nat.lt_succ_self cell)),
    get_set_self _ _ (Nat.lt_of_succ_lt h), get_set_self _ _ h, wordOf_highByte_lowByte]

theorem get_setWord_of_ne (r : RegisterBank) {cell other : Nat} (value : UInt16) (h : other ≠ cell)
    (h' : other ≠ cell + 1) : (r.setWord cell value).get other = r.get other := by
  rw [setWord, get_set_of_ne _ _ h', get_set_of_ne _ _ h]

/-- The ring position that the word at a cell names. -/
def pointer (r : RegisterBank) (cell : Nat) : RingOffset := RingOffset.ofWord (r.word cell)

def destAddr (r : RegisterBank) : Ipv4 :=
  ⟨r.get Cell.destAddr, r.get (Cell.destAddr + 1), r.get (Cell.destAddr + 2), r.get (Cell.destAddr + 3)⟩

def setDestAddr (r : RegisterBank) (ip : Ipv4) : RegisterBank :=
  (((r.set Cell.destAddr ip.a).set (Cell.destAddr + 1) ip.b).set (Cell.destAddr + 2) ip.c).set
    (Cell.destAddr + 3) ip.d

def toBytes (r : RegisterBank) : Bytes := r.cells.toList

@[simp] theorem length_toBytes (r : RegisterBank) : r.toBytes.length = bankSize := by
  simp [toBytes]

/-- A bank with saved cells: missing ones have their power-on values, surplus ones are ignored. -/
def ofBytes (data : Bytes) : RegisterBank := ⟨overlay powerOn.cells 0 (data.take bankSize)⟩

end RegisterBank

end EtherChip

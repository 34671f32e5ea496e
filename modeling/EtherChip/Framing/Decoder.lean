import EtherChip.Framing.Burst
import EtherChip.Framing.Frame
import EtherChip.Model

/-!
# Decoder

The framing of a chip is that of its model and never changes.
-/
namespace EtherChip

inductive Decoder where
  | frame (state : FrameState)
  | burst (state : BurstState)
  deriving DecidableEq, Repr

namespace Decoder

/-- Between transactions, in the framing of a model. -/
def idle : ChipModel → Decoder
  | .w5100 => .frame .idle
  | .w5500 => .burst .addrHigh

/-- One received byte: the operation that it completes, if any, and the state after it. -/
def feed : Decoder → UInt8 → Option MemoryOp × Decoder
  | frame s, b => let (op, s) := s.feed b; (op, frame s)
  | burst s, b => let (op, s) := s.feed b; (op, burst s)

/-- The chip has been deselected: a collected write comes out, and an address or an opcode is
expected next. -/
def deselect : Decoder → Option MemoryOp × Decoder
  | frame _ => (none, frame .idle)
  | burst s => (s.finish, burst .addrHigh)

def reset : Decoder → Decoder
  | frame _ => frame .idle
  | burst _ => burst .addrHigh

def isIdle : Decoder → Bool
  | frame s => s == .idle
  | burst s => s == .addrHigh

end Decoder

end EtherChip

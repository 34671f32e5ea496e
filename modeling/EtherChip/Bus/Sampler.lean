import EtherChip.Bytes
import EtherChip.Bus.Lines

/-!
# Bit sampler

The sampler looks at the lines once per step. While the chip is selected, every rising clock edge
shifts the master's level into the byte being received and moves the byte being sent one bit on.
The output line follows the top bit of the byte being sent, and only while the clock is low, so it
is stable when the master samples it. After eight edges the received byte is published. Deselecting
throws an incomplete byte away.
-/
namespace EtherChip

structure Sampler where
  /-- Bits received of the current byte. -/
  incoming : UInt8 := 0
  /-- Byte being sent; its top bit drives the output line. -/
  outgoing : UInt8 := 0
  /-- Rising edges seen in the current byte. -/
  edges : Nat := 0
  /-- Clock level at the step before. -/
  lastClock : Bool := false
  /-- Byte to be sent in the next transfer. -/
  primed : UInt8 := 0
  /-- Last byte received in full. -/
  received : UInt8 := 0
  /-- A received byte has not been taken yet. -/
  ready : Bool := false
  /-- The chip was selected at the last step. -/
  selected : Bool := false
  deriving DecidableEq, Repr, Inhabited

namespace Sampler

/-- What a deselected step does: the current byte is dropped and the next one starts afresh. -/
def deselect (s : Sampler) : Sampler :=
  { s with incoming := 0, edges := 0, outgoing := s.primed, lastClock := false, selected := false }

/-- What the clock level does during a selected step: a rising edge shifts, and a low level drives
the output line, which starts a byte with the primed value. -/
def clock (s : Sampler) (lines : Lines) : Sampler × Lines :=
  if lines.sck && !s.lastClock then
    ({ s with incoming := shiftIn s.incoming lines.mosi, outgoing := s.outgoing * 2,
              edges := s.edges + 1 }, lines)
  else if !lines.sck then
    let outgoing := if s.edges = 0 then s.primed else s.outgoing
    ({ s with outgoing := outgoing }, { lines with miso := 128 ≤ outgoing })
  else (s, lines)

/-- Publishes the received byte once eight bits are in. -/
def publish (s : Sampler) : Sampler :=
  if s.edges = 8 then { s with received := s.incoming, incoming := 0, edges := 0, ready := true }
  else s

/-- One step with the given levels; gives the levels with the output line as the chip drives it. -/
def step (s : Sampler) (lines : Lines) : Sampler × Lines :=
  if lines.selected then
    let (s, driven) := clock { s with selected := true } lines
    (publish { s with lastClock := lines.sck }, driven)
  else (s.deselect, lines)

def take (s : Sampler) : UInt8 × Sampler := (s.received, { s with ready := false })

def prime (s : Sampler) (value : UInt8) : Sampler := { s with primed := value }

end Sampler

end EtherChip

/-!
# Serial bus lines

Four levels: slave select (active low), clock, and the two data lines. The environment sets the
three inputs before a step and reads the output line after it.
-/
namespace EtherChip

/-- One of the four bus lines. -/
inductive Line where
  /-- Slave select, active low. -/
  | ss
  | sck
  /-- Data from the master to the chip. -/
  | mosi
  /-- Data from the chip to the master. -/
  | miso
  deriving DecidableEq, Repr

/-- Levels of the bus lines, `true` for high. At power-on the chip is deselected and the other
lines are low. -/
structure Lines where
  ss : Bool := true
  sck : Bool := false
  mosi : Bool := false
  miso : Bool := false
  deriving DecidableEq, Repr, Inhabited

namespace Lines

/-- The master addresses the chip while it holds slave select low. -/
def selected (l : Lines) : Bool := !l.ss

def level (l : Lines) : Line → Bool
  | .ss => l.ss
  | .sck => l.sck
  | .mosi => l.mosi
  | .miso => l.miso

def drive (l : Lines) (line : Line) (high : Bool) : Lines :=
  match line with
  | .ss => { l with ss := high }
  | .sck => { l with sck := high }
  | .mosi => { l with mosi := high }
  | .miso => { l with miso := high }

end Lines

end EtherChip

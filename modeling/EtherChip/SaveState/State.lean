import EtherChip.Bytes

/-!
# Saved state

What a save file holds: the common registers, and for every socket its registers, its two rings
and the position at which the next received byte is stored. A state read from a file may have
byte strings of any length and any number of sockets.
-/
namespace EtherChip

structure SocketState where
  registers : Bytes := []
  tx : Bytes := []
  rx : Bytes := []
  rxWrite : UInt16 := 0
  deriving DecidableEq, Repr, Inhabited

structure SaveState where
  common : Bytes := []
  sockets : List SocketState := []
  deriving DecidableEq, Repr, Inhabited

end EtherChip

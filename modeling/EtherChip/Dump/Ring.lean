import EtherChip.Socket.Ring
import EtherChip.Text.Hex

/-!
# Ring dumps

Sixteen bytes a line: the ring position of the first one, the bytes in hexadecimal in a column of
47 characters, and the same bytes as text with a dot for everything that is not printable ASCII. A
dump that passes the end of the ring goes on at its start.
-/
namespace EtherChip.Dump

def lineSize : Nat := 16

/-- Width of the column of hexadecimal bytes. -/
def hexColumn : Nat := 47

/-- A byte in the text column. -/
def printable (b : UInt8) : Char := if 0x20 ≤ b ∧ b < 0x7F then Char.ofNat b.toNat else '.'

/-- Bytes in hexadecimal, parted by blanks. -/
def hexList (bs : Bytes) : List Char := [' '].intercalate (bs.map Text.hexByte)

def ringLine (offset : RingOffset) (bs : Bytes) : List Char :=
  let hex := hexList bs
  Text.hexDigits 4 offset.val ++ [':', ' '] ++ hex ++ List.replicate (hexColumn - hex.length) ' ' ++
    [' ', ' '] ++ bs.map printable

def ringLinesFrom (offset : RingOffset) (bs : Bytes) : List (List Char) :=
  if bs.length = 0 then []
  else ringLine offset (bs.take lineSize) :: ringLinesFrom (offset.advance lineSize) (bs.drop lineSize)
termination_by bs.length
decreasing_by
  simp only [List.length_drop, lineSize]
  omega

/-- Lines for `len` bytes from a ring position on, at most one ring's worth. -/
def ringLines (ring : Ring) (start : RingOffset) (len : Nat) : List (List Char) :=
  ringLinesFrom start (ring.copyOut start len)

def ring (ring : Ring) (start : RingOffset) (len : Nat) : String :=
  String.ofList ((ringLines ring start len).flatMap (· ++ ['\n']))

end EtherChip.Dump

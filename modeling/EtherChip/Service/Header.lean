import EtherChip.Net.Config

/-!
# Receive header of a datagram

In front of every datagram the chip puts eight bytes into the receive ring: the sender's address
and port and the payload length, high byte first.
-/
namespace EtherChip

def receiveHeaderSize : Nat := 8

/-- Receive header for a payload of `len` bytes; a length above 65535 loses its high bits (`udp_header`). -/
def receiveHeader (source : Endpoint) (len : Nat) : Bytes :=
  let size := UInt16.ofNat len
  source.ip.octets ++ [highByte source.port, lowByte source.port, highByte size, lowByte size]

@[simp] theorem length_receiveHeader (source : Endpoint) (len : Nat) :
    (receiveHeader source len).length = receiveHeaderSize := rfl

end EtherChip

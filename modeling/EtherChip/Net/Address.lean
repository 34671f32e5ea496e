import EtherChip.Bytes

/-!
# Addresses

Four-byte addresses, which are written in dotted form, and endpoints: an address with a port.
-/
namespace EtherChip

structure Ipv4 where
  a : UInt8
  b : UInt8
  c : UInt8
  d : UInt8
  deriving DecidableEq, Repr, Inhabited

namespace Ipv4

/-- The address 0.0.0.0, which stands for every local interface. -/
def unspecified : Ipv4 := ⟨0, 0, 0, 0⟩

def localhost : Ipv4 := ⟨127, 0, 0, 1⟩

def broadcast : Ipv4 := ⟨255, 255, 255, 255⟩

/-- The four bytes in the order in which they are sent. -/
def octets (ip : Ipv4) : Bytes := [ip.a, ip.b, ip.c, ip.d]

/-- Addresses 127.0.0.0 to 127.255.255.255 name the local machine. -/
def isLoopback (ip : Ipv4) : Bool := ip.a == 127

/-- Addresses 224.0.0.0 to 239.255.255.255 name groups. -/
def isMulticast (ip : Ipv4) : Bool := ip.a.toNat / 16 == 14

def text (ip : Ipv4) : String :=
  ".".intercalate (ip.octets.map fun o => o.toNat.repr)

end Ipv4

structure Endpoint where
  ip : Ipv4
  port : UInt16
  deriving DecidableEq, Repr, Inhabited

end EtherChip

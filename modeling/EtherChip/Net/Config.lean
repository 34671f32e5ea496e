import EtherChip.Net.Address

/-!
# Network configuration of a chip

Every socket of the chip is bound to one loopback address, and service ports are moved above 1024
on the host's side. The registers keep the port numbers that the firmware wrote.
-/
namespace EtherChip

def dhcpServerPort : UInt16 := 67

def dhcpClientPort : UInt16 := 68

def ntpPort : UInt16 := 123

/-- How a chip is placed on the host's network. -/
structure NetConfig where
  /-- Address that every socket binds to, and the address that the DHCP service leases. -/
  bindAddr : Ipv4 := ⟨127, 0, 0, 100⟩
  /-- Address that the built-in services give as their own. -/
  serverAddr : Ipv4 := Ipv4.localhost
  /-- Pairs of a firmware port and the host port used for it. -/
  portRemap : List (UInt16 × UInt16) := [(dhcpServerPort, 6967), (dhcpClientPort, 6968), (ntpPort, 10123)]
  /-- Suggested delay between two steps in nanoseconds. -/
  stepInterval : UInt64 := 1000
  deriving DecidableEq, Repr, Inhabited

/-- Host port for a firmware port: the first pair that matches wins, and any other port is kept. -/
def NetConfig.remapPort (cfg : NetConfig) (port : UInt16) : UInt16 :=
  match cfg.portRemap.find? fun pair => pair.1 == port with
  | some pair => pair.2
  | none => port

end EtherChip

import EtherChip.Service.Header

/-!
# Built-in time service

A request to the time server port comes back with its transmit timestamp replaced by the host's
clock. Requests that are not exactly one packet long are dropped. Timestamps count seconds from
1900 modulo 2^32, with a zero fraction.
-/
namespace EtherChip.Sntp

def packetSize : Nat := 48

def transmitTimestamp : Nat := 40

/-- Seconds from the start of 1900 to the start of 1970. -/
def epochOffset : Nat := 2208988800

/-- Seconds after which timestamps start over. -/
def eraSeconds : Nat := 4294967296

/-- Timestamp seconds for a clock in Unix seconds. -/
def timestampSeconds (unixSeconds : Nat) : Nat := (unixSeconds + epochOffset) % eraSeconds

/-- What the receive ring gets in answer to a request, if the request is one packet. -/
def respond? (request : Bytes) (server : Ipv4) (unixSeconds : Nat) : Option Bytes :=
  if request.length = packetSize then
    some (receiveHeader ⟨server, ntpPort⟩ packetSize ++ request.take transmitTimestamp ++
      Bytes.bigEndian 4 (timestampSeconds unixSeconds) ++ [0, 0, 0, 0])
  else none

end EtherChip.Sntp

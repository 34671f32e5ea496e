import EtherChip.Service.Header

/-!
# Built-in DHCP service

Requests to the DHCP server port are answered on the spot: a DISCOVER by an OFFER, anything else
by an ACK. The reply repeats the request's fixed fields, leases one configured address, and names
the configured server as server, router and server identifier.

A message has 236 bytes of fixed fields, a four-byte cookie, and then options: a pad byte 0, the
end mark 255, or a code byte with a length byte and that many bytes of data.
-/
namespace EtherChip.Dhcp

/-- Length of every reply message, and of the request that the bench sends. -/
def messageSize : Nat := 300

/-- Bytes of fixed fields before the cookie. -/
def fixedSize : Nat := 236

def optionsStart : Nat := 240

/-- Four bytes that part the fixed fields from the options. -/
def cookie : Bytes := [99, 130, 83, 99]

def discover : UInt8 := 1

/-- Message type of the answer to a first request. -/
def offer : UInt8 := 2

/-- Message type of the answer to any other request. -/
def ack : UInt8 := 5

def typeOption : UInt8 := 53

/-- First byte of the data of the first message-type option that has data. The walk ends at the
end mark, at the end of the list, and at an option whose length byte is missing. -/
def typeInOptions : Bytes → Option UInt8
  | [] => none
  | code :: rest =>
    if code = 0 then typeInOptions rest
    else if code = 255 then none
    else match rest with
      | [] => none
      | len :: data =>
        if code = typeOption ∧ 1 ≤ len.toNat then data.head?
        else typeInOptions (data.drop len.toNat)
termination_by options => options.length
decreasing_by
  all_goals simp only [List.length_cons, List.length_drop]
  all_goals omega

/-- Message type of a request; none if the request ends before its options or has no such option. -/
def messageType? (request : Bytes) : Option UInt8 := typeInOptions (request.drop optionsStart)

/-- The bytes of a request from `start` on, `len` of them, with zeros where the request has ended. -/
def field (request : Bytes) (start len : Nat) : Bytes :=
  let present := (request.drop start).take len
  present ++ List.replicate (len - present.length) 0

/-- An option with its code, length and data. -/
def encodeOption (option : UInt8 × Bytes) : Bytes :=
  option.1 :: UInt8.ofNat option.2.length :: option.2

/-- Options of a reply: its type, a mask for 256 addresses, the router and the server identifier. -/
def replyOptions (kind : UInt8) (server : Ipv4) : List (UInt8 × Bytes) :=
  [(typeOption, [kind]), (1, [255, 255, 255, 0]), (3, server.octets), (54, server.octets)]

def replyType (request : Bytes) : UInt8 :=
  if messageType? request = some discover then offer else ack

/-- Reply message to a request, without the receive header. -/
def replyMessage (request : Bytes) (leased server : Ipv4) : Bytes :=
  let options := (replyOptions (replyType request) server).flatMap encodeOption ++ [255]
  [2] ++ field request 1 15 ++ leased.octets ++ server.octets ++ field request 24 (fixedSize - 24) ++
    cookie ++ options ++ List.replicate (messageSize - optionsStart - options.length) 0

/-- What the receive ring gets in answer to a request. -/
def respond (request : Bytes) (leased server : Ipv4) : Bytes :=
  receiveHeader ⟨server, dhcpServerPort⟩ messageSize ++ replyMessage request leased server

end EtherChip.Dhcp

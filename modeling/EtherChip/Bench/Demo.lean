import EtherChip.Bus.Master
import EtherChip.Dump.Registers

/-!
# Demos

The bench plays the part of the firmware: every access to the chip goes over the bus. The DHCP demo
asks for a lease from socket 0, the time demo for the time, and both print what the reply says.

After a command the bench reads the command register until it shows zero. Nothing bounds the number
of these reads, so a demo can go on for ever. Here it is told how patient to be: how often it may read
the register again after one command. An action that would go on longer has no result.
-/
namespace EtherChip.Bench

inductive Demo where
  | regs
  /-- A lease from the DHCP service. -/
  | dhcp
  /-- The time from the time service. -/
  | ntp
  deriving DecidableEq, Repr, Inhabited

inductive DemoError where
  /-- Opening the socket left it in the state with this code. -/
  | notOpened (status : UInt8)
  | noReply
  | shortReply
  deriving DecidableEq, Repr

/-- Runs on a host; one that has not come to an end has no result. -/
abbrev RunM (ν : Type) := StateT ν Option

/-- A run that always ends. -/
def RunM.ending {ν α : Type} (act : StateM ν α) : RunM ν α := fun net => some (act net)

/-- Actions of the bench on a chip, with a given patience. -/
abbrev BenchM (ν : Type) := ReaderT Nat (StateT Chip (RunM ν))

/-- Actions over the bus always end. -/
def onBus {ν α : Type} (act : BusM ν α) : BenchM ν α := fun _ c => RunM.ending (act c)

variable {ν : Type} [NetHost ν]

/-- Flat address of a register cell, as a bus address. -/
def cellAddr (socket cell : Nat) : UInt16 := (registerAddr socket cell).toUInt16

/-- Reads the command register of a socket until it shows zero. -/
def awaitAccepted (socket : Nat) : (reads : Nat) → BenchM ν Unit
  | 0 => failure
  | reads + 1 => do
    let shown ← onBus (Master.readByte (cellAddr socket Cell.command))
    if shown = 0 then return () else awaitAccepted socket reads

/-- Gives a command to a socket, and waits until the socket has taken it. -/
def command (socket : Nat) (c : Command) : BenchM ν Unit := do
  onBus (Master.writeByte (cellAddr socket Cell.command) c.code)
  let patience ← read
  awaitAccepted socket (patience + 1)

/-- Opens a datagram socket on a port; gives the status code if the socket does not open (`open_udp`). -/
def openDatagram (socket : Nat) (port : UInt16) : BenchM ν (Except DemoError Unit) := do
  onBus (Master.writeByte (cellAddr socket Cell.mode) Protocol.udp.code)
  onBus (Master.writeWord (cellAddr socket Cell.sourcePort) port)
  command socket .openSocket
  let status ← onBus (Master.readByte (cellAddr socket Cell.status))
  return if status = Status.udpReady.code then .ok () else .error (.notOpened status)

/-- Stores bytes in the transmit ring from a position on. -/
def storeTx (socket : Nat) (position : UInt16) : Bytes → BusM ν Unit
  | [] => return ()
  | b :: bs => do
    Master.writeByte (txAddr socket (RingOffset.ofWord position)).toUInt16 b
    storeTx socket (position + 1) bs

def sendDatagram (socket : Nat) (dest : Endpoint) (data : Bytes) : BenchM ν Unit := do
  onBus (Master.write (cellAddr socket Cell.destAddr) dest.ip.octets)
  onBus (Master.writeWord (cellAddr socket Cell.destPort) dest.port)
  let position ← onBus (Master.readWord (cellAddr socket Cell.txWrite))
  onBus (storeTx socket position data)
  onBus (Master.writeWord (cellAddr socket Cell.txWrite) (position + UInt16.ofNat data.length))
  command socket .send

def waitSteps : Nat := 1000

/-- Number of received bytes, as soon as there are any; none after the given number of waits. -/
def awaitReceived (socket : Nat) : (waits : Nat) → BusM ν (Option UInt16)
  | 0 => do
    let size ← Master.readWord (cellAddr socket Cell.rxReceived)
    return if size = 0 then none else some size
  | waits + 1 => do
    let size ← Master.readWord (cellAddr socket Cell.rxReceived)
    if size = 0 then
      Master.idle waitSteps
      awaitReceived socket waits
    else return some size

/-- Reads bytes from the receive ring from a position on. -/
def loadRx (socket : Nat) (position : UInt16) : (len : Nat) → BusM ν Bytes
  | 0 => return []
  | len + 1 => do
    let b ← Master.readByte (rxAddr socket (RingOffset.ofWord position)).toUInt16
    return b :: (← loadRx socket (position + 1) len)

/-- Waits for received bytes and takes them (`recv`). -/
def receive (socket maxSteps : Nat) : BenchM ν (Option Bytes) := do
  match ← onBus (awaitReceived socket ((maxSteps + waitSteps - 1) / waitSteps)) with
  | none => return none
  | some size =>
    let position ← onBus (Master.readWord (cellAddr socket Cell.rxRead))
    let data ← onBus (loadRx socket position size.toNat)
    onBus (Master.writeWord (cellAddr socket Cell.rxRead) (position + size))
    command socket .receive
    return some data

/-- Sends a request from socket 0 and takes the reply, without its receive header. -/
def exchange (port : UInt16) (dest : Endpoint) (request : Bytes) (maxSteps : Nat) :
    BenchM ν (Except DemoError Bytes) := do
  match ← openDatagram 0 port with
  | .error e => return .error e
  | .ok () =>
    sendDatagram 0 dest request
    match ← receive 0 maxSteps with
    | none => return .error .noReply
    | some reply =>
      command 0 .close
      return .ok (reply.drop receiveHeaderSize)

/-! ## DHCP -/

def hardwareAddr : Bytes := [0x02, 0x00, 0x00, 0x57, 0x49, 0x5A]

/-- A first request: a broadcast from an Ethernet address of six bytes (`discover_packet`). -/
def discoverRequest : Bytes :=
  [1, 1, 6, 0, 0x39, 0x03, 0xF3, 0x26] ++ List.replicate 20 0 ++ hardwareAddr ++
    List.replicate (Dhcp.fixedSize - 34) 0 ++ Dhcp.cookie ++ [Dhcp.typeOption, 1, Dhcp.discover, 255] ++
    List.replicate (Dhcp.messageSize - Dhcp.optionsStart - 4) 0

/-- Word for the type of a reply. -/
def replyWord (kind : Option UInt8) : String :=
  if kind = some Dhcp.offer then "OFFER" else if kind = some Dhcp.ack then "ACK" else "?"

/-- The address in four bytes of a message. -/
def addressAt? (message : Bytes) (start : Nat) : Option Ipv4 :=
  match (message.drop start).take 4 with
  | [a, b, c, d] => some ⟨a, b, c, d⟩
  | _ => none

def describeLease (message : Bytes) : Except DemoError String :=
  match addressAt? message 16, addressAt? message 20 with
  | some lease, some server =>
    .ok ("DHCP " ++ replyWord (Dhcp.messageType? message) ++ ": lease " ++ lease.text ++ " from " ++
      server.text ++ "\n")
  | _, _ => .error .shortReply

def runDhcp (maxSteps : Nat) : BenchM ν (Except DemoError String) := do
  onBus (Master.write 0x0009 hardwareAddr)
  let reply ← exchange dhcpClientPort ⟨Ipv4.broadcast, dhcpServerPort⟩ discoverRequest maxSteps
  return reply.bind describeLease

/-! ## Time -/

/-- UDP port that the time demo sends from. -/
def timePort : UInt16 := 8888

/-- A client's request in version 3. -/
def timeRequest : Bytes := 0x1B :: List.replicate (Sntp.packetSize - 1) 0

def describeTime (packet : Bytes) : Except DemoError String :=
  let digits := (packet.drop Sntp.transmitTimestamp).take 4
  if digits.length < 4 then .error .shortReply
  else
    let seconds := Bytes.ofBigEndian digits
    .ok ("NTP transmit time: " ++ seconds.repr ++ " (unix " ++ (seconds - Sntp.epochOffset).repr ++ ")\n")

def runTime (maxSteps : Nat) : BenchM ν (Except DemoError String) := do
  let server := (← get).config.serverAddr
  let reply ← exchange timePort ⟨server, ntpPort⟩ timeRequest maxSteps
  return reply.bind describeTime

/-- Runs a demo and gives what it prints. -/
def Demo.run (maxSteps : Nat) : Demo → BenchM ν (Except DemoError String)
  | .regs => do return .ok (← get).dumpAll
  | .dhcp => runDhcp maxSteps
  | .ntp => runTime maxSteps

end EtherChip.Bench

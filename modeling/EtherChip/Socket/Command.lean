import EtherChip.Service.Dhcp
import EtherChip.Service.Sntp
import EtherChip.Socket.Engine

/-!
# Commands of a socket

```text
stream:    closed --OPEN--> init --CONNECT, then a poll--> established
                             |                                ^
                             +-----LISTEN--> listen --accept--+
           init, listen --CLOSE--> closed
           established --CLOSE, DISCON, other end closed--> closed

datagram:  closed --OPEN--> udpReady --CLOSE, DISCON--> closed
```

A command that does not apply to the status is ignored. CONNECT only starts a connection. SEND on a
stream is complete, and says so, once the host has taken every byte up to the write position seen
at SEND; until then the chip's read position trails the bytes that are left. Datagrams to the ports
of the built-in services never reach the host.
-/
namespace EtherChip.Engine

variable {ν : Type} [NetHost ν]

/-- Host endpoint on which the socket is to be found. -/
def localEndpoint (e : Engine) (cfg : NetConfig) : Endpoint :=
  ⟨cfg.bindAddr, cfg.remapPort (e.regs.word Cell.sourcePort)⟩

/-- Host endpoint for the destination in the registers. -/
def destEndpoint (e : Engine) (cfg : NetConfig) : Endpoint :=
  ⟨e.regs.destAddr, cfg.remapPort (e.regs.word Cell.destPort)⟩

/-- Gets a bare stream socket from the host. -/
def openStream (e : Engine) : StateM ν Engine := do
  match ← HostSocket.openTcp with
  | .ok host => return enter { e with host := host, protocol := some .tcp } .init
  | .error _ => return e

/-- Gets a bound datagram socket from the host, and joins the destination group if the mode asks
for it; a group that cannot be joined does not matter. -/
def openDatagram (e : Engine) (cfg : NetConfig) : StateM ν Engine := do
  match ← HostSocket.openUdp (e.localEndpoint cfg) with
  | .error _ => return e
  | .ok host =>
    if wantsMulticast (e.regs.get Cell.mode) then
      let _ ← host.joinGroup e.regs.destAddr cfg.bindAddr
    return enter { e with host := host, protocol := some .udp } .udpReady

/-- OPEN: with a mode that names a protocol, empties the rings and asks the host for a socket (`open`). -/
def openSocket (e : Engine) (cfg : NetConfig) : StateM ν Engine := do
  match Protocol.ofMode? (e.regs.get Cell.mode) with
  | none => return e
  | some protocol =>
    e.host.close
    let e := resetPointers { e with host := .none }
    match protocol with
    | .tcp => e.openStream
    | .udp => e.openDatagram cfg

/-- CONNECT: starts a connection unless one is under way. -/
def connect (e : Engine) (cfg : NetConfig) : StateM ν Engine := do
  if e.isConnecting then return e
  match ← e.host.connect (e.destEndpoint cfg) with
  | .ok host => return { e with host := host }
  | .error _ => return e

def listen (e : Engine) (cfg : NetConfig) : StateM ν Engine := do
  match ← e.host.listen (e.localEndpoint cfg) with
  | .ok host => return enter { e with host := host } .listen
  | .error _ => return e

/-- A SEND has been completed at a transmit position. -/
def completeSend (e : Engine) (position : RingOffset) : Engine :=
  (showFree { e with regs := e.regs.setWord Cell.txRead position.toWord }).raise Interrupt.sendOk

/-- Hands the bytes of a SEND on a stream to the host. The chip's read position only passes bytes
that the host has taken. -/
def flushStream (e : Engine) : StateM ν Engine := do
  match e.sendEnd with
  | none => return e
  | some stop =>
    let start := e.txRead
    let len := RingOffset.distance start stop
    if len = 0 then return completeSend { e with sendEnd := none } stop
    match ← e.host.sendStream (e.tx.copyOut start len) with
    | .error _ => e.release
    | .ok sent =>
      if sent < len then
        if sent = 0 then return e
        return showFree { e with regs := e.regs.setWord Cell.txRead (start.advance sent).toWord }
      return completeSend { e with sendEnd := none } stop

/-- Sends one datagram: to a built-in service, whose reply is taken in at once, or to the host. -/
def sendDatagram (e : Engine) (cfg : NetConfig) (data : Bytes) : StateM ν Engine := do
  let port := e.regs.word Cell.destPort
  if port = dhcpServerPort then return e.deliver (Dhcp.respond data cfg.bindAddr cfg.serverAddr)
  if port = ntpPort then
    match Sntp.respond? data cfg.serverAddr (NetHost.clock (← get)) with
    | some reply => return e.deliver reply
    | none => return e
  let _ ← e.host.sendDatagram data (e.destEndpoint cfg)
  return e

/-- SEND on a datagram socket: one datagram of all bytes that are waiting, none if there are none (`send`). -/
def sendWaiting (e : Engine) (cfg : NetConfig) : StateM ν Engine := do
  let start := e.txRead
  let len := RingOffset.distance start e.txWrite
  let e ← if len = 0 then pure e else e.sendDatagram cfg (e.tx.copyOut start len)
  return e.completeSend (start.advance len)

def send (e : Engine) (cfg : NetConfig) : StateM ν Engine :=
  match e.status with
  | .established => flushStream { e with sendEnd := some e.txWrite }
  | .udpReady => e.sendWaiting cfg
  | _ => pure e

def command (e : Engine) (cfg : NetConfig) (b : UInt8) : StateM ν Engine :=
  match e.status, Command.ofCode? b with
  | .closed, some .openSocket => e.openSocket cfg
  | .init, some .connect => e.connect cfg
  | .init, some .listen => e.listen cfg
  | .init, some .close | .listen, some .close
  | .established, some .close | .established, some .disconnect
  | .udpReady, some .close | .udpReady, some .disconnect => e.release
  | .established, some .send | .udpReady, some .send => e.send cfg
  | .established, some .receive | .udpReady, some .receive => pure e.showReceived
  | _, _ => pure e

def writeRegister (e : Engine) (cfg : NetConfig) (cell : Nat) (value : UInt8) : StateM ν Engine :=
  if cell = Cell.command then e.command cfg value else pure (e.store cell value)

end EtherChip.Engine

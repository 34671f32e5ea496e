import EtherChip.Socket.Command

/-!
# Polling a socket

At every step of the chip each socket looks at its host socket once. How much room the receive ring
has is decided before anything else happens in that step.
-/
namespace EtherChip.Engine

variable {ν : Type} [NetHost ν]

/-- Takes a waiting connection; its other end shows in the destination registers. -/
def pollListener (e : Engine) : StateM ν Engine := do
  match ← e.host.acceptNext with
  | (.ok (some peer), host) =>
    let regs := (e.regs.setDestAddr peer.ip).setWord Cell.destPort peer.port
    return enter { e with regs := regs, host := host } .established
  | (_, host) => return { e with host := host }

/-- Finishes a connection that has been started, or starts over with a new stream socket if it has
failed; the old one is closed once the new one exists. -/
def pollConnect (e : Engine) : StateM ν Engine := do
  match ← e.host.finishConnect with
  | (.ok (some _), host) => return enter { e with host := host } .established
  | (.ok none, host) => return { e with host := host }
  | (.error _, host) =>
    match ← HostSocket.openTcp with
    | .ok fresh =>
      host.close
      return { e with host := fresh }
    | .error _ => release { e with host := host }

/-- Takes bytes from a stream into the receive ring (`poll_received`). -/
def pollStream (e : Engine) (room : Nat) : StateM ν Engine := do
  match ← e.host.receiveStream room with
  | .idle => return e
  | .data bytes => return e.deliver bytes
  | .closed => e.release

/-- Takes one datagram with its header into the receive ring. -/
def pollDatagram (e : Engine) (room : Nat) : StateM ν Engine := do
  match ← e.host.receiveDatagram room with
  | .ok (.received source bytes) => return e.deliver (receiveHeader source bytes.length ++ bytes)
  | _ => return e

/-- What a socket does at one step of the chip. -/
def poll (e : Engine) : StateM ν Engine :=
  let room := e.rxRoom
  match e.status with
  | .closed => pure e
  | .init => e.pollConnect
  | .listen => e.pollListener
  | .established => do
    let e ← e.flushStream
    e.pollStream room
  | .udpReady => e.pollDatagram room

end EtherChip.Engine

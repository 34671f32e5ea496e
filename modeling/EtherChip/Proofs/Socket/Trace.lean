import EtherChip.Socket.Poll

/-!
# Histories of a socket

What can happen to a socket from outside is an `Event`; a history is any list of events, each with
the state in which it meets the host. The host states of a history are not tied to one another: what
the host does between two events, and what it answers, is not restricted in any way.
-/
namespace EtherChip.Engine

/-- What can happen to a socket. -/
inductive Event where
  /-- The firmware writes a register cell. -/
  | write (cfg : NetConfig) (cell : Nat) (value : UInt8)
  | command (cfg : NetConfig) (code : UInt8)
  | storeTx (o : RingOffset) (value : UInt8)
  | storeRx (o : RingOffset) (value : UInt8)
  | deliver (data : Bytes)
  | poll
  | reset
  | load (state : SocketState)

/-- The command that an event gives. -/
def Event.command? : Event → Option Command
  | .write _ cell code => if cell = Cell.command then Command.ofCode? code else none
  | .command _ code => Command.ofCode? code
  | _ => none

/-- An event takes over a saved state. -/
def Event.isLoad : Event → Bool
  | .load _ => true
  | _ => false

/-- An event resets the socket. -/
def Event.isReset : Event → Bool
  | .reset => true
  | _ => false

variable {ν : Type} [NetHost ν]

/-- One event. -/
def step (e : Engine) : Event → StateM ν Engine
  | .write cfg cell value => e.writeRegister cfg cell value
  | .command cfg code => e.command cfg code
  | .storeTx o value => pure (e.storeTx o value)
  | .storeRx o value => pure (e.storeRx o value)
  | .deliver data => pure (e.deliver data)
  | .poll => e.poll
  | .reset => e.reset
  | .load state => e.load state

/-- A history from a given socket on. -/
def trace (e : Engine) (events : List (Event × ν)) : Engine :=
  events.foldl (fun e event => (e.step event.1 event.2).1) e

@[simp] theorem trace_nil (e : Engine) : e.trace ([] : List (Event × ν)) = e := rfl

@[simp] theorem trace_cons (e : Engine) (event : Event × ν) (events : List (Event × ν)) :
    e.trace (event :: events) = (e.step event.1 event.2).1.trace events := rfl

theorem trace_append (e : Engine) (events later : List (Event × ν)) :
    e.trace (events ++ later) = (e.trace events).trace later := List.foldl_append

/-- What a socket can be: the outcome of a history from power-on, with some host. -/
def Reachable (e : Engine) : Prop :=
  ∃ (ν : Type) (_ : NetHost ν) (events : List (Event × ν)), e = powerOn.trace events

end EtherChip.Engine

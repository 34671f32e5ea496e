import EtherChip.Proofs.Host.NetworkInlet
import EtherChip.Proofs.Socket.Session
import EtherChip.Proofs.Socket.Stream

/-!
# Bytes from a stream

What an established socket takes from its stream arrives in the receive ring whole and in order, however
the other end sends it, whenever the socket is polled, and however the firmware reads: the room for a poll
is the room that the delivery finds. The socket closes only when a call fails for good, or when the other
end has closed and every byte has been moved into the ring (`stream_received`).
-/
namespace EtherChip.Engine

variable {ν : Type} [NetHost ν]

/-- The bytes that a poll takes from a stream. -/
def streamTaken (e : Engine) (net : ν) : Bytes := (e.polled? net).getD []

theorem getD_bytes? (found : StreamEvent) : found.bytes?.getD [] = found.bytes := by
  cases found <;> rfl

section Poll

variable {inlet : Inlet ν UInt8} {id : SocketId} {e : Engine} {net : ν}

/-- With no SEND pending a poll only reads. -/
theorem poll_receiving (receiving : Session.Receiving inlet .established (.stream id) e net) :
    e.poll net = e.pollStream e.rxRoom net ∧
    e.streamTaken net = ((HostSocket.stream id).receiveStream e.rxRoom net).1.bytes := by
  have idle : (e.flushStream : StateM ν Engine) = pure e := flushStream_of_none receiving.idle
  rw [streamTaken, polled?_established receiving.status, poll_established receiving.status, getD_bytes?, idle]
  exact ⟨rfl, by rw [← receiving.host]; rfl⟩

/-- **One poll** appends what it takes to the unread bytes, and takes no more than they leave room for. It
closes the socket only for a reason. -/
theorem poll_stream (calls : StreamCalls inlet id)
    (receiving : Session.Receiving inlet .established (.stream id) e net) :
    (e.streamTaken net).length ≤ e.rxRoom ∧
    (e.poll net).1.unreadBytes = e.unreadBytes ++ e.streamTaken net ∧
    (Session.Receiving inlet .established (.stream id) (e.poll net).1 (e.poll net).2 ∧
        inlet.Gives (e.streamTaken net) net (e.poll net).2 ∨
      (e.poll net).1.status = .closed ∧ e.streamTaken net = [] ∧
        (StreamFails id e.rxRoom net ∨ inlet.waiting net = [] ∧ inlet.ended net)) := by
  obtain ⟨polled, taken⟩ := poll_receiving receiving
  obtain ⟨short, gives, closed⟩ := receiveStream_takes calls receiving.sound e.rxRoom
  have run := pollStream_run e net e.rxRoom
  have after := pollStream_net e net e.rxRoom
  rw [receiving.host] at run after
  rw [polled, taken]
  generalize (HostSocket.stream id).receiveStream e.rxRoom net = found at *
  refine ⟨short, ?_⟩
  obtain ⟨event, net'⟩ := found
  cases event with
  | idle =>
    refine ⟨?_, .inl ⟨?_, ?_⟩⟩
    · rw [run]
      exact (List.append_nil _).symm
    · rw [run, after nofun]
      exact receiving.moved gives.sound
    · rw [after nofun]
      exact gives
  | data bytes =>
    refine ⟨?_, .inl ⟨?_, ?_⟩⟩
    · rw [run]
      exact unreadBytes_deliver short
    · rw [run, after nofun]
      exact receiving.deliver bytes gives.sound
    · rw [after nofun]
      exact gives
  | closed =>
    rw [run]
    exact ⟨(unreadBytes_closed e).trans (List.append_nil _).symm, .inr ⟨rfl, rfl, closed rfl⟩⟩

end Poll

/-- A stream does in a poll what a receiving socket has to do. -/
theorem stream_polls {inlet : Inlet ν UInt8} {id : SocketId} (calls : StreamCalls inlet id) :
    Session.Polls inlet .established (.stream id) streamTaken fun byte => [byte] where
  opened := by decide
  closed {e net} status := by
    rw [streamTaken, polled?, status]
    rfl
  stores receiving := by
    rw [List.flatMap_singleton']
    exact (poll_stream calls receiving).2.1
  goes receiving := (poll_stream calls receiving).2.2.imp_right fun ⟨closed, nothing, _⟩ => ⟨closed, nothing⟩

/-- A closed socket takes nothing. -/
theorem poll_closed {e : Engine} (status : e.status = .closed) (net : ν) :
    e.poll net = (e, net) ∧ e.streamTaken net = [] := by
  rw [streamTaken, polled?, poll, status]
  exact ⟨rfl, rfl⟩

/-- **Integrity of a receive stream.** A session of an established socket with no SEND pending, on a host
whose stream calls do what is said of them. The other end sends and closes, the socket is polled, and the
firmware reads in any order. Then what has been read and what is unread are what was unread at the start
and what has been taken since, which is the front of what has arrived; the next poll takes no more than
there is room for and loses nothing of it; and it closes the socket only if a call fails for good or if the
other end has closed and all that has arrived has been taken. -/
theorem stream_received {inlet : Inlet ν UInt8} {id : SocketId} (calls : StreamCalls inlet id) {e : Engine} {net : ν}
    (receiving : Session.Receiving inlet .established (.stream id) e net) {actions : List (Action ν UInt8)}
    (runs : (Session.start inlet e net).Runs inlet streamTaken actions) :
    let s := (Session.start inlet e net).run streamTaken actions
    let next := s.socket.poll s.net
    let taken := s.socket.streamTaken s.net
    s.read ++ s.socket.unreadBytes = e.unreadBytes ++ s.taken ∧
    s.taken <+: s.arrived ∧
    (s.socket.status = .established → s.arrived = s.taken ++ inlet.waiting s.net) ∧
    taken.length ≤ ringSize - 1 - s.socket.unread ∧
    next.1.unreadBytes = s.socket.unreadBytes ++ taken ∧
    (s.socket.status = .established → next.1.status = .closed →
      StreamFails id s.socket.rxRoom s.net ∨ inlet.ended s.net ∧ s.taken = s.arrived) := by
  intro s next taken
  obtain ⟨bytes, first, state⟩ := (Session.balanced_start receiving).run (stream_polls calls) runs
  rw [List.flatMap_singleton'] at bytes
  refine ⟨bytes, first, ?_⟩
  rcases state with ⟨now, rest⟩ | closed
  · obtain ⟨short, stored, goes⟩ := poll_stream calls now
    refine ⟨fun _ => rest, short, stored, fun _ closes => ?_⟩
    rcases goes with ⟨up, -⟩ | ⟨-, -, why⟩
    · exact absurd (up.status.symm.trans closes) (by decide)
    · refine why.imp_right fun ⟨drained, ended⟩ => ⟨ended, ?_⟩
      rw [rest, drained, List.append_nil]
  · obtain ⟨still, nothing⟩ := poll_closed closed s.net
    have down (up : s.socket.status = .established) : False := nomatch closed.symm.trans up
    refine ⟨fun up => (down up).elim, ?_, ?_, fun up => (down up).elim⟩
    · show (s.socket.streamTaken s.net).length ≤ _
      rw [nothing]
      exact Nat.zero_le _
    · show (s.socket.poll s.net).1.unreadBytes = s.socket.unreadBytes ++ s.socket.streamTaken s.net
      rw [nothing, still, List.append_nil]

/-- A network with one connection, on which bytes wait for the chip. -/
def carrying (inbox : Bytes) (closed : Bool) : Network where
  sockets := [(⟨0⟩, .tcp none (.connected 0 .opener ⟨Ipv4.localhost, 80⟩))]
  links := #[{ opener := { outside := false, inbox := inbox }, answerer := { outside := true, closed := closed } }]

/-- Bytes arrive in two parts, around a read of three of them, and then the other end closes. -/
def twoParts : List (Action Network UInt8) :=
  [.arrives [1, 2, 3, 4, 5] (carrying [1, 2, 3, 4, 5] false), .polls, .reads 3 false,
    .does (.command {} Command.receive.code), .arrives [6, 7] (carrying [6, 7] false),
    .arrives [] (carrying [6, 7] true), .polls, .reads 4 true]

theorem stream_received_two_parts :
    let start := Session.start (Network.streamInlet ⟨0⟩) (powerOn.trace connectedSocket) (carrying [] false)
    let s := start.run streamTaken twoParts
    start.Runs (Network.streamInlet ⟨0⟩) streamTaken twoParts ∧
    s.read = [1, 2, 3, 4, 5, 6, 7] ∧ s.taken = s.arrived ∧ (s.socket.poll s.net).1.status = .closed := by
  have receiving : Session.Receiving (Network.streamInlet ⟨0⟩) .established (.stream ⟨0⟩)
      (powerOn.trace connectedSocket) (carrying [] false) :=
    ⟨by decide +kernel, by decide +kernel, by decide +kernel, by decide +kernel⟩
  have runs : (Session.start (Network.streamInlet ⟨0⟩) (powerOn.trace connectedSocket) (carrying [] false)).Runs
      (Network.streamInlet ⟨0⟩) streamTaken twoParts := by decide +kernel
  obtain ⟨-, -, -, -, -, closes⟩ := stream_received (Network.streamCalls ⟨0⟩) receiving runs
  have all := (closes (by decide +kernel) (by decide +kernel)).resolve_left (by decide +kernel)
  exact ⟨runs, by decide +kernel, all.2, by decide +kernel⟩

end EtherChip.Engine

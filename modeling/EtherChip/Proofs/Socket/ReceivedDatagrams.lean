import EtherChip.Proofs.Host.NetworkInlet
import EtherChip.Proofs.Socket.Session

/-!
# Datagrams

A datagram arrives in the receive ring as one frame: its sender's address and port and its length, then
its bytes. The oldest datagram that waits at the host is the only one that a poll looks at (`Serves`): it
is taken if its frame fits, thrown away if it fits in no ring, and left where it is otherwise, with the
socket as it was. So the frames in the ring are those of the datagrams that have been taken, in order of
arrival and each whole (`datagrams_received`).
-/
namespace EtherChip

/-- A datagram with its header, as it stands in the receive ring. -/
def Datagram.frame (d : Datagram) : Bytes :=
  d.source.ip.octets ++ Bytes.bigEndian 2 d.source.port.toNat ++ Bytes.bigEndian 2 d.payload.length ++ d.payload

/-- What is stored of a datagram: its frame, or nothing if it fits in no ring. -/
def Datagram.stored (d : Datagram) : Bytes := if d.Oversized then [] else d.frame

/-- The two bytes of a number that are left when it is cut to a word. -/
theorem bytes_ofNat (n : Nat) : [highByte (UInt16.ofNat n), lowByte (UInt16.ofNat n)] = Bytes.bigEndian 2 n := by
  have cut : Bytes.bigEndian 2 n = [UInt8.ofNat (n / 256), UInt8.ofNat n] := rfl
  have high : highByte (UInt16.ofNat n) = UInt8.ofNat (n / 256) := by
    rw [highByte, UInt16.toNat_ofNat', ← UInt8.toNat_inj, UInt8.toNat_ofNat', UInt8.toNat_ofNat']
    omega
  have low : lowByte (UInt16.ofNat n) = UInt8.ofNat n := by
    rw [lowByte, UInt16.toNat_ofNat', ← UInt8.toNat_inj, UInt8.toNat_ofNat', UInt8.toNat_ofNat']
    omega
  rw [cut, high, low]

theorem Datagram.frame_eq (d : Datagram) : receiveHeader d.source d.payload.length ++ d.payload = d.frame := by
  have port := bytes_ofNat d.source.port.toNat
  have size := bytes_ofNat d.payload.length
  rw [UInt16.ofNat_toNat] at port
  rw [frame, ← port, ← size, receiveHeader]
  simp only [List.append_assoc, List.cons_append, List.nil_append]

theorem Datagram.length_frame (d : Datagram) : d.frame.length = d.payload.length + receiveHeaderSize := by
  rw [← frame_eq, List.length_append, length_receiveHeader, Nat.add_comm]

namespace Engine

variable {ν : Type} [NetHost ν]

/-- The datagrams that a poll takes from the host. -/
def datagramsTaken (inlet : Inlet ν Datagram) (e : Engine) (net : ν) : List Datagram :=
  if e.status = .udpReady then
    match (e.host.receiveDatagram e.rxRoom net).1 with
    | .ok (.received _ _) | .ok (.dropped _) => (inlet.waiting net).take 1
    | _ => []
  else []

/-- What a poll does to the queue of a datagram socket, and with it to the socket. -/
structure Serves (inlet : Inlet ν Datagram) (id : SocketId) (e : Engine) (net : ν) (next : Engine × ν) : Prop where
  none : inlet.waiting net = [] → next.1 = e ∧ inlet.waiting next.2 = []
  /-- The oldest one goes: into the ring if any ring can hold it. -/
  goes : ∀ d rest, inlet.waiting net = d :: rest → d.Goes e.rxRoom → ¬ DatagramRefused id net →
    next.1 = (if d.Oversized then e else e.appended d.frame) ∧ inlet.waiting next.2 = rest
  /-- The oldest one stays, and all others behind it. -/
  stays : ∀ d rest, inlet.waiting net = d :: rest → ¬ d.Goes e.rxRoom ∨ DatagramRefused id net →
    next.1 = e ∧ inlet.waiting next.2 = d :: rest

section Poll

variable {inlet : Inlet ν Datagram} {id : SocketId} {e : Engine} {net : ν}

theorem serves_nothing {net' : ν} (gives : inlet.Gives [] net net')
    (refused : ∀ d ∈ (inlet.waiting net).head?, d.Goes e.rxRoom → DatagramRefused id net) :
    Serves inlet id e net (e, net') where
  none empty := ⟨rfl, gives.waiting.symm.trans empty⟩
  goes d rest waiting goes willing := absurd (refused d (by rw [waiting]; rfl) goes) willing
  stays d rest waiting _ := ⟨rfl, gives.waiting.symm.trans waiting⟩

theorem serves_oldest {d : Datagram} {net' : ν} (gives : inlet.Gives [d] net net') (goes : d.Goes e.rxRoom)
    (willing : ¬ DatagramRefused id net) :
    Serves inlet id e net (if d.Oversized then e else e.appended d.frame, net') where
  none empty := nomatch empty.symm.trans gives.waiting
  goes other rest waiting _ _ := by
    obtain ⟨rfl, rfl⟩ := List.cons.inj (gives.waiting.symm.trans waiting)
    exact ⟨rfl, rfl⟩
  stays other rest waiting why := by
    obtain ⟨rfl, -⟩ := List.cons.inj (gives.waiting.symm.trans waiting)
    exact why.elim (absurd goes) fun refused => absurd refused willing

/-- **One poll** serves the queue, appends the frames of what it takes, and leaves the socket open. -/
theorem poll_datagrams (calls : DatagramCalls inlet id)
    (receiving : Session.Receiving inlet .udpReady (.datagram id) e net) :
    Serves inlet id e net (e.poll net) ∧
    (e.poll net).1.unreadBytes = e.unreadBytes ++ (datagramsTaken inlet e net).flatMap Datagram.stored ∧
    Session.Receiving inlet .udpReady (.datagram id) (e.poll net).1 (e.poll net).2 ∧
    inlet.Gives (datagramsTaken inlet e net) net (e.poll net).2 := by
  have collects := receiveDatagram_collects calls receiving.sound e.rxRoom
  have run := pollDatagram_run e net e.rxRoom
  have after := pollDatagram_net e net e.rxRoom
  rw [datagramsTaken, if_pos receiving.status, poll_udpReady receiving.status]
  rw [receiving.host] at run after ⊢
  generalize (HostSocket.datagram id).receiveDatagram e.rxRoom net = found at *
  generalize e.pollDatagram e.rxRoom net = next at *
  obtain ⟨e', net'⟩ := next
  dsimp only at run after
  subst run after
  cases collects with
  | nothing answer net' noDrop noData gives refused =>
    rcases answer with why | _ | len | ⟨source, bytes⟩ | len
    case ok.received => exact absurd rfl (noData source bytes)
    case ok.dropped => exact absurd rfl (noDrop len)
    all_goals
      exact ⟨serves_nothing gives refused, (List.append_nil _).symm, receiving.moved gives.sound, gives⟩
  | dropped d net' oversized willing gives =>
    have oldest : (inlet.waiting net).take 1 = [d] := by rw [gives.waiting]; rfl
    have serves := serves_oldest (e := e) gives (.inl oversized) willing
    rw [if_pos oversized] at serves
    refine ⟨serves, ?_, receiving.moved gives.sound, ?_⟩
    · show e.unreadBytes = e.unreadBytes ++ ((inlet.waiting net).take 1).flatMap _
      rw [oldest, List.flatMap_singleton, Datagram.stored, if_pos oversized, List.append_nil]
    · show inlet.Gives ((inlet.waiting net).take 1) net net'
      rw [oldest]
      exact gives
  | received d net' small goes willing gives =>
    have oldest : (inlet.waiting net).take 1 = [d] := by rw [gives.waiting]; rfl
    have fits : d.frame.length ≤ e.rxRoom := by
      rw [Datagram.length_frame]
      exact goes.resolve_left small
    have delivered : e.deliver (receiveHeader d.source d.payload.length ++ d.payload) = e.appended d.frame := by
      rw [Datagram.frame_eq, deliver_eq, if_pos fits]
    have serves := serves_oldest (e := e) gives goes willing
    rw [if_neg small] at serves
    dsimp only
    rw [delivered, oldest, List.flatMap_singleton, Datagram.stored, if_neg small]
    refine ⟨serves, unreadBytes_appended fits, ?_, gives⟩
    rw [← delivered]
    exact receiving.deliver _ gives.sound

end Poll

/-- A datagram socket does in a poll what a receiving socket has to do. -/
theorem datagram_polls {inlet : Inlet ν Datagram} {id : SocketId} (calls : DatagramCalls inlet id) :
    Session.Polls inlet .udpReady (.datagram id) (datagramsTaken inlet) Datagram.stored where
  opened := by decide
  closed status := if_neg (by rw [status]; decide)
  stores receiving := (poll_datagrams calls receiving).2.1
  goes receiving := .inl (poll_datagrams calls receiving).2.2

/-- OPEN leaves nothing unread. -/
theorem unreadBytes_opened {e : Engine} (status : e.status = .closed) (cfg : NetConfig) (net : ν)
    (opened : (e.command cfg Command.openSocket.code net).1.status ≠ .closed) :
    (e.command cfg Command.openSocket.code net).1.unreadBytes = [] := by
  by_cases supported : (Protocol.ofMode? (e.regs.get Cell.mode)).isSome
  · have reopens : e.Reopens (Command.ofCode? Command.openSocket.code) :=
      ⟨Command.ofCode?_code _, status, supported⟩
    have empty := (command_reopened e cfg _ reopens net).intake
    have start : RingOffset.distance (RingOffset.ofWord 0) 0 = 0 := by decide
    rw [unreadBytes, ← unread_intake, empty, Intake.unread, start, Ring.copyOut_zero]
  · rw [command, status, Command.ofCode?_code] at opened
    dsimp only at opened
    rw [openSocket_unsupported cfg (by simpa using supported)] at opened
    exact absurd status opened

/-- **Framing of datagrams.** A session of a datagram socket without SENDs, on a host whose datagram calls
do what is said of them. Datagrams arrive, the socket is polled, and the firmware reads in any order. Then
what has been read and what is unread are what was unread at the start, which is nothing after OPEN, and
what is stored of the datagrams that have been taken: the frame of each, or nothing of one that fits in no
ring. They are the first that have arrived; the others wait; and the next poll serves the oldest of them
(`Serves`). -/
theorem datagrams_received {inlet : Inlet ν Datagram} {id : SocketId} (calls : DatagramCalls inlet id) {e : Engine}
    {net : ν} (receiving : Session.Receiving inlet .udpReady (.datagram id) e net) {actions : List (Action ν Datagram)}
    (runs : (Session.start inlet e net).Runs inlet (datagramsTaken inlet) actions) :
    let s := (Session.start inlet e net).run (datagramsTaken inlet) actions
    s.read ++ s.socket.unreadBytes = e.unreadBytes ++ s.taken.flatMap Datagram.stored ∧
    (∀ (e₀ : Engine) cfg (net₀ : ν), e₀.status = .closed → e = (e₀.command cfg Command.openSocket.code net₀).1 →
      e.unreadBytes = []) ∧
    s.taken <+: s.arrived ∧
    (s.socket.status = .udpReady → s.arrived = s.taken ++ inlet.waiting s.net ∧
      Serves inlet id s.socket s.net (s.socket.poll s.net)) := by
  intro s
  obtain ⟨bytes, first, state⟩ := (Session.balanced_start receiving).run (datagram_polls calls) runs
  refine ⟨bytes, fun e₀ cfg net₀ closed opened => ?_, first, fun up => ?_⟩
  · subst opened
    exact unreadBytes_opened closed cfg net₀ (by rw [receiving.status]; decide)
  · rcases state with ⟨now, rest⟩ | closed
    · exact ⟨rest, (poll_datagrams calls now).1⟩
    · exact nomatch closed.symm.trans up

/-- A network with one datagram socket, at which datagrams wait. -/
def queueing (queue : List Datagram) : Network where
  sockets := [(⟨0⟩, .udp (some ⟨⟨127, 0, 0, 100⟩, 40000⟩) queue)]

def freshDatagramSocket : List (Event × Network) :=
  [(.write {} Cell.mode Protocol.udp.code, {}), (.command {} Command.openSocket.code, {})]

/-- Datagrams of no byte, of one byte more than fits in a ring, and of three bytes. -/
def threeSizes : List Datagram :=
  [⟨⟨⟨10, 0, 0, 5⟩, 53⟩, []⟩, ⟨⟨⟨10, 0, 0, 6⟩, 80⟩, List.replicate 2040 0⟩, ⟨⟨⟨10, 0, 0, 7⟩, 0x1234⟩, [1, 2, 3]⟩]

/-- They arrive at once, are taken one by one, and are read in two parts. -/
def oneByOne : List (Action Network Datagram) :=
  [.arrives threeSizes (queueing threeSizes), .polls, .polls, .polls, .reads 8 false,
    .does (.command {} Command.receive.code), .reads 5 true]

theorem datagrams_received_three_sizes :
    let start := Session.start (Network.datagramInlet ⟨0⟩) (powerOn.trace freshDatagramSocket) (queueing [])
    let s := start.run (datagramsTaken (Network.datagramInlet ⟨0⟩)) oneByOne
    start.Runs (Network.datagramInlet ⟨0⟩) (datagramsTaken (Network.datagramInlet ⟨0⟩)) oneByOne ∧
    s.taken = threeSizes ∧
    s.read ++ s.socket.unreadBytes = [10, 0, 0, 5, 0, 53, 0, 0, 10, 0, 0, 7, 0x12, 0x34, 0, 3, 1, 2, 3] := by
  have receiving : Session.Receiving (Network.datagramInlet ⟨0⟩) .udpReady (.datagram ⟨0⟩)
      (powerOn.trace freshDatagramSocket) (queueing []) :=
    ⟨by decide +kernel, by decide +kernel, by decide +kernel, by decide +kernel⟩
  have runs : (Session.start (Network.datagramInlet ⟨0⟩) (powerOn.trace freshDatagramSocket) (queueing [])).Runs
      (Network.datagramInlet ⟨0⟩) (datagramsTaken (Network.datagramInlet ⟨0⟩)) oneByOne := by decide +kernel
  obtain ⟨bytes, opened, -, -⟩ := datagrams_received (Network.datagramCalls ⟨0⟩) receiving runs
  have taken : ((Session.start (Network.datagramInlet ⟨0⟩) (powerOn.trace freshDatagramSocket) (queueing [])).run
      (datagramsTaken (Network.datagramInlet ⟨0⟩)) oneByOne).taken = threeSizes := by decide +kernel
  have fresh : (powerOn.trace freshDatagramSocket).unreadBytes = [] :=
    opened (powerOn.trace (freshDatagramSocket.take 1)) {} {} (by decide +kernel) rfl
  refine ⟨runs, taken, bytes.trans ?_⟩
  rw [fresh, taken]
  decide +kernel

end Engine

end EtherChip

import EtherChip.Host.Interface
import EtherChip.Service.Header
import EtherChip.Socket.Ring

/-!
# Host socket behind a socket of the chip

A socket of the chip owns at most one host socket, in one of five stages. Opening gives a bare
stream socket or a bound datagram socket; listening or connecting moves a stream socket on, and
accepting or finishing a connection ends with a connected stream. An operation that fails leaves
the stage as it was, except where it says otherwise. Nothing is closed behind the caller's back:
whoever replaces a host socket closes the one that it replaces.
-/
namespace EtherChip

/-- Largest datagram that fits in an empty receive ring together with its header. -/
def maxDatagram : Nat := ringSize - 1 - receiveHeaderSize

/-- Connections that the host keeps waiting for a listening socket. -/
def listenBacklog : Nat := 5

inductive HostSocket where
  | none
  /-- A stream socket that is neither listening nor connecting. -/
  | tcp (id : SocketId)
  /-- A connection that has been started. -/
  | connecting (id : SocketId) (dest : Endpoint)
  | listener (id : SocketId)
  | stream (id : SocketId)
  | datagram (id : SocketId)
  deriving DecidableEq, Repr, Inhabited

inductive StreamEvent where
  | idle
  | data (bytes : Bytes)
  | closed
  deriving DecidableEq, Repr

inductive DatagramEvent where
  | idle
  /-- A datagram of this length waits for room. -/
  | pending (len : Nat)
  | received (source : Endpoint) (bytes : Bytes)
  /-- A datagram that can never fit was thrown away; the length is that of the part looked at. -/
  | dropped (len : Nat)
  deriving DecidableEq, Repr

namespace HostSocket

variable {ν : Type} [NetHost ν]

def id? : HostSocket → Option SocketId
  | none => Option.none
  | tcp id | connecting id _ | listener id | stream id | datagram id => some id

/-- A connection has been started and is not finished. -/
def isConnecting : HostSocket → Bool
  | connecting _ _ => true
  | _ => false

def localAddr? (s : HostSocket) (net : ν) : Option Endpoint := s.id?.bind (NetHost.localAddr net)

/-- Gives the host socket back to the host. -/
def close (s : HostSocket) : StateM ν Unit :=
  match s.id? with
  | Option.none => pure ()
  | some id => NetHost.close id

/-- Makes the calls that set up a new socket, one after the other. With the first that fails the
socket is closed. -/
def setUp (id : SocketId) : List (StateM ν (Except Errno Unit)) → StateM ν (Except Errno Unit)
  | [] => return .ok ()
  | call :: calls => do
    match ← call with
    | .ok () => setUp id calls
    | .error e =>
      NetHost.close id
      return .error e

/-- New unbound stream socket (`tcp`). -/
def openTcp : StateM ν (Except HostError HostSocket) := do
  match ← NetHost.tcpSocket with
  | .error e => return .error (.os e)
  | .ok id =>
    match ← setUp id [NetHost.setNonBlocking id, NetHost.setReuseAddress id] with
    | .ok () => return .ok (tcp id)
    | .error e => return .error (.os e)

/-- New datagram socket bound to an endpoint (`bind_udp`). -/
def openUdp (addr : Endpoint) : StateM ν (Except HostError HostSocket) := do
  match ← NetHost.udpSocket with
  | .error e => return .error (.os e)
  | .ok id =>
    match ← setUp id [NetHost.bind id addr, NetHost.setNonBlocking id] with
    | .ok () => return .ok (datagram id)
    | .error e => return .error (.os e)

/-- Binds a stream socket and lets it listen. -/
def listen (s : HostSocket) (addr : Endpoint) : StateM ν (Except HostError HostSocket) := do
  match s with
  | tcp id =>
    match ← NetHost.bind id addr with
    | .error e => return .error (.os e)
    | .ok () =>
      match ← NetHost.listen id listenBacklog with
      | .error e => return .error (.os e)
      | .ok () => return .ok (listener id)
  | _ => return .error .notOpen

/-- A refusal that only says that the connection is under way (`connect_in_progress`). -/
def startedAnyway (e : Errno) : Bool := e == .einprogress || e == .eagain

/-- Starts a connection of a stream socket. -/
def connect (s : HostSocket) (dest : Endpoint) : StateM ν (Except HostError HostSocket) := do
  match s with
  | tcp id =>
    match ← NetHost.connect id dest with
    | .ok () => return .ok (connecting id dest)
    | .error e => return if startedAnyway e then .ok (connecting id dest) else .error (.os e)
  | _ => return .error .notOpen

/-- A refusal that only says that the connection is not up yet. -/
def notConnectedYet (e : Errno) : Bool := e == .enotconn || e == .eagain

/-- Looks whether a started connection is up, and gives its other end once it is (`poll_connect`). A stream whose
options cannot be set is closed, and then no host socket is left. -/
def finishConnect (s : HostSocket) : StateM ν (Except HostError (Option Endpoint) × HostSocket) := do
  match s with
  | connecting id dest =>
    match ← NetHost.takeError id with
    | .error e | .ok (some e) => return (.error (.os e), s)
    | .ok Option.none =>
      match ← NetHost.peerName id with
      | .error e =>
        return (if notConnectedYet e then .ok Option.none else .error (.os e), s)
      | .ok _ =>
        match ← NetHost.setNoDelay id with
        | .ok () => return (.ok (some dest), stream id)
        | .error e =>
          NetHost.close id
          return (.error (.os e), none)
  | _ => return (.ok Option.none, s)

/-- Takes one waiting connection of a listener, which then gives way to the accepted stream and is
closed (`poll_accept`). An accepted stream that cannot be set up is closed, and the listener stays. -/
def acceptNext (s : HostSocket) : StateM ν (Except HostError (Option Endpoint) × HostSocket) := do
  match s with
  | listener id =>
    match ← NetHost.accept id with
    | .error e => return (if e = .eagain then .ok Option.none else .error (.os e), s)
    | .ok (accepted, peer) =>
      match ← setUp accepted [NetHost.setNonBlocking accepted, NetHost.setNoDelay accepted] with
      | .ok () =>
        NetHost.close id
        return (.ok (some peer), stream accepted)
      | .error e => return (.error (.os e), s)
  | _ => return (.ok Option.none, s)

/-- Takes at most `max` bytes from a stream (`poll_stream`). A closed other end and every failure but `eagain`
count as closed; a stream is looked at even when there is no room. -/
def receiveStream (s : HostSocket) (max : Nat) : StateM ν StreamEvent := do
  match s with
  | stream id =>
    match ← NetHost.peek id 1 with
    | .ok 0 => return .closed
    | .error e => return if e = .eagain then .idle else .closed
    | .ok (_ + 1) =>
      if max = 0 then return .idle
      match ← NetHost.read id max with
      | .ok [] => return .closed
      | .ok bytes => return .data bytes
      | .error e => return if e = .eagain then .idle else .closed
  | _ => return .idle

/-- Takes one datagram if it fits in `free` bytes together with its header (`poll_datagram`). One that fits in no
ring is thrown away. One byte more than the largest datagram is looked at, to tell the two apart. -/
def receiveDatagram (s : HostSocket) (free : Nat) : StateM ν (Except HostError DatagramEvent) := do
  match s with
  | datagram id =>
    match ← NetHost.peekFrom id (maxDatagram + 1) with
    | .error e => return if e = .eagain then .ok .idle else .error (.os e)
    | .ok len =>
      if maxDatagram < len then
        match ← NetHost.receiveFrom id (maxDatagram + 1) with
        | .ok _ => return .ok (.dropped len)
        | .error e => return .error (.os e)
      else if free < len + receiveHeaderSize then return .ok (.pending len)
      else
        match ← NetHost.receiveFrom id (maxDatagram + 1) with
        | .ok (bytes, source) => return .ok (.received source bytes)
        | .error e => return .error (.os e)
  | _ => return .ok .idle

/-- Offers bytes to a stream, once more each time that a signal interrupts the write. -/
def offer (id : SocketId) (data : Bytes) (net : ν) : Except Errno Nat × ν :=
  match _answer : NetHost.write id data net with
  | (.ok n, net') => (.ok n, net')
  | (.error e, net') => if e = .eintr then offer id data net' else (.error e, net')
termination_by NetHost.interruptions id data net
decreasing_by
  rename_i again
  subst again
  have fewer := NetHost.interruptions_lt (congrArg Prod.fst _answer)
  rwa [_answer] at fewer

theorem offer_of_write {id : SocketId} {data : Bytes} {net net' : ν} {answer : Except Errno Nat} :
    NetHost.write id data net = (answer, net') →
      offer id data net =
        match answer with
        | .ok n => (.ok n, net')
        | .error e => if e = .eintr then offer id data net' else (.error e, net') := by
  intro asked
  rw [offer]
  split
  all_goals
    rename_i answered
    cases asked.symm.trans answered
    rfl

/-- Writes until everything is taken or the host takes no more; `sent` bytes went before (`send_stream`). -/
def writeAll (id : SocketId) (data : Bytes) (sent : Nat) (net : ν) : Except HostError Nat × ν :=
  match data with
  | [] => (.ok sent, net)
  | b :: rest =>
    match offer id (b :: rest) net with
    | (.ok 0, net') => (.error .writeZero, net')
    | (.ok (n + 1), net') => writeAll id (rest.drop n) (sent + min (n + 1) (rest.length + 1)) net'
    | (.error e, net') => if e = .eagain then (.ok sent, net') else (.error (.os e), net')
termination_by data.length

@[simp] theorem writeAll_nil (id : SocketId) (sent : Nat) (net : ν) : writeAll id [] sent net = (.ok sent, net) := by
  rw [writeAll]

/-- What a write comes to, by the answer to its first call. -/
theorem writeAll_cons {id : SocketId} {b : UInt8} {rest : Bytes} {sent : Nat} {net net' : ν} {answer : Except Errno Nat} :
    NetHost.write id (b :: rest) net = (answer, net') →
      writeAll id (b :: rest) sent net =
        match answer with
        | .ok 0 => (.error .writeZero, net')
        | .ok (n + 1) => writeAll id (rest.drop n) (sent + min (n + 1) (rest.length + 1)) net'
        | .error e =>
          if e = .eagain then (.ok sent, net')
          else if e = .eintr then writeAll id (b :: rest) sent net'
          else (.error (.os e), net') := by
  intro asked
  rw [writeAll, offer_of_write asked]
  cases answer with
  | ok n => cases n with
    | zero => rfl
    | succ n => rfl
  | error e =>
    by_cases again : e = .eintr
    · subst again
      rw [writeAll.eq_def id (b :: rest) sent net']
      rfl
    · simp only [if_neg again]

/-- An interrupted write is made again. -/
theorem writeAll_interrupted {id : SocketId} {b : UInt8} {rest : Bytes} {sent : Nat} {net net' : ν}
    (asked : NetHost.write id (b :: rest) net = (.error .eintr, net')) :
    writeAll id (b :: rest) sent net = writeAll id (b :: rest) sent net' :=
  writeAll_cons asked

/-- **Induction on the calls of a write**, with a case for each answer to the first of them: the data gets shorter
or, when a signal interrupts the call, the interruptions to come get fewer. -/
@[elab_as_elim]
theorem writeAll_induct {id : SocketId} {motive : Bytes → Nat → ν → Prop}
    (done : ∀ sent net, motive [] sent net)
    (stuck : ∀ sent net b rest net', NetHost.write id (b :: rest) net = (.ok 0, net') → motive (b :: rest) sent net)
    (taken : ∀ sent net b rest n net', NetHost.write id (b :: rest) net = (.ok (n + 1), net') →
      motive (rest.drop n) (sent + min (n + 1) (rest.length + 1)) net' → motive (b :: rest) sent net)
    (waits : ∀ sent net b rest net', NetHost.write id (b :: rest) net = (.error .eagain, net') →
      motive (b :: rest) sent net)
    (interrupted : ∀ sent net b rest net', NetHost.write id (b :: rest) net = (.error .eintr, net') →
      motive (b :: rest) sent net' → motive (b :: rest) sent net)
    (failed : ∀ sent net b rest e net', NetHost.write id (b :: rest) net = (.error e, net') → e ≠ .eagain →
      e ≠ .eintr → motive (b :: rest) sent net)
    (data : Bytes) (sent : Nat) (net : ν) : motive data sent net :=
  match data with
  | [] => done sent net
  | b :: rest =>
    match answered : NetHost.write id (b :: rest) net with
    | (.ok 0, net') => stuck sent net b rest net' answered
    | (.ok (n + 1), net') =>
      taken sent net b rest n net' answered (writeAll_induct done stuck taken waits interrupted failed _ _ _)
    | (.error e, net') =>
      if wait : e = .eagain then waits sent net b rest net' (wait ▸ answered)
      else if again : e = .eintr then
        interrupted sent net b rest net' (again ▸ answered)
          (writeAll_induct done stuck taken waits interrupted failed _ _ _)
      else failed sent net b rest e net' answered wait again
termination_by (data.length, NetHost.interruptions id data net)
decreasing_by
  · simp only [List.length_drop, List.length_cons]
    apply Prod.Lex.left
    omega
  · subst again
    apply Prod.Lex.right
    have fewer := NetHost.interruptions_lt (congrArg Prod.fst answered)
    rwa [answered] at fewer

/-- Writes as much to a stream as the host takes now, and tells how much that was. -/
def sendStream (s : HostSocket) (data : Bytes) : StateM ν (Except HostError Nat) :=
  match s with
  | stream id => writeAll id data 0
  | _ => return .error .noStream

def sendDatagram (s : HostSocket) (data : Bytes) (dest : Endpoint) : StateM ν (Except HostError Unit) := do
  match s with
  | datagram id =>
    match ← NetHost.sendTo id data dest with
    | .ok () => return .ok ()
    | .error e => return .error (.os e)
  | _ => return .error .noDatagramSocket

def joinGroup (s : HostSocket) (group iface : Ipv4) : StateM ν (Except HostError Unit) := do
  match s with
  | datagram id =>
    match ← NetHost.joinGroup id group iface with
    | .ok () => return .ok ()
    | .error e => return .error (.os e)
  | _ => return .error .notDatagram

end HostSocket

end EtherChip

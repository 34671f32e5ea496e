import EtherChip.Host.Interface

/-!
# In-memory network

A host without an operating system: sockets, the connections between them and to outside ends, and
a clock, all in one value. Nothing blocks and nothing is lost. Every call can be made to fail
beforehand; failures queue up per call and go before every other check.

A connection has two sides, the opener that connected and the answerer that accepted. Each side is
held by a socket of this host or is outside.
-/
namespace EtherChip

inductive HostCall where
  | socket | bind | listen | connect | takeError | peerName | nonBlocking | reuseAddress | noDelay
  | accept | peek | read | write | peekFrom | receiveFrom | sendTo | joinGroup
  deriving DecidableEq, Repr

inductive Fault where
  | error (code : Errno)
  /-- A stream call takes or finds nothing, without an error. -/
  | zero
  deriving DecidableEq, Repr

structure Datagram where
  source : Endpoint
  payload : Bytes
  deriving DecidableEq, Repr

inductive Side where
  | opener
  | answerer
  deriving DecidableEq, Repr

def Side.other : Side → Side
  | opener => answerer
  | answerer => opener

structure LinkSide where
  /-- The side is not held by a socket of this host. -/
  outside : Bool
  closed : Bool := false
  reset : Bool := false
  /-- Bytes that have arrived and have not been read. -/
  inbox : Bytes := []
  /-- How many bytes the side may still send, if there is a limit. -/
  window : Option Nat := none
  deriving DecidableEq, Repr

structure Link where
  opener : LinkSide
  answerer : LinkSide
  deriving DecidableEq, Repr

namespace Link

def side (l : Link) : Side → LinkSide
  | .opener => l.opener
  | .answerer => l.answerer

def modify (l : Link) (s : Side) (f : LinkSide → LinkSide) : Link :=
  match s with
  | .opener => { l with opener := f l.opener }
  | .answerer => { l with answerer := f l.answerer }

end Link

inductive StreamStage where
  | fresh
  /-- Listening, with the connections that wait: their numbers and the openers' endpoints. -/
  | listening (backlog : Nat) (waiting : List (Nat × Endpoint))
  | connecting (dest : Endpoint)
  /-- Refused or failed, with the failure until it is taken. -/
  | failed (error : Option Errno)
  | connected (link : Nat) (side : Side) (peer : Endpoint)
  deriving DecidableEq, Repr

/-- A live socket of this host; the endpoint is absent until the socket is bound. -/
inductive NetSocket where
  | udp (addr : Option Endpoint) (queue : List Datagram)
  | tcp (addr : Option Endpoint) (stage : StreamStage)
  deriving DecidableEq, Repr

def NetSocket.addr? : NetSocket → Option Endpoint
  | udp addr _ => addr
  | tcp addr _ => addr

/-- How an outside server answers a connection. -/
inductive ServerMode where
  /-- Established, and reported as under way. -/
  | accept
  /-- Established, and reported as established. -/
  | sync
  /-- Left open until it is resolved. -/
  | pending
  deriving DecidableEq, Repr

inductive LogEntry where
  | datagram (source dest : Endpoint) (payload : Bytes)
  | joined (group iface : Ipv4)
  deriving DecidableEq, Repr

structure Network where
  sockets : List (SocketId × NetSocket) := []
  nextId : Nat := 0
  /-- Established connections by number. -/
  links : Array Link := #[]
  servers : List (Endpoint × ServerMode) := []
  faults : List (HostCall × Fault) := []
  /-- What was sent, newest first. -/
  log : List LogEntry := []
  /-- Next port for a socket that asks for any. -/
  nextPort : Nat := 40000
  /-- Wall clock in Unix seconds; times before 1970 are negative. -/
  clock : Int := 1700000000

namespace Network

/-! ## Access -/

def socket? (net : Network) (id : SocketId) : Option NetSocket := net.sockets.lookup id

def setSocket (net : Network) (id : SocketId) (s : NetSocket) : Network :=
  { net with sockets := net.sockets.map fun entry => if entry.1 = id then (id, s) else entry }

/-- Adds a socket and gives its identity. -/
def addSocket (s : NetSocket) : StateM Network SocketId := do
  let net ← get
  let id : SocketId := ⟨net.nextId⟩
  set { net with sockets := net.sockets ++ [(id, s)], nextId := net.nextId + 1 }
  return id

/-- Adds a connection and gives its number. -/
def addLink (openerOutside answererOutside : Bool) : StateM Network Nat := do
  let net ← get
  let link : Link := { opener := { outside := openerOutside }, answerer := { outside := answererOutside } }
  set { net with links := net.links.push link }
  return net.links.size

def modifySide (net : Network) (link : Nat) (s : Side) (f : LinkSide → LinkSide) : Network :=
  { net with links := net.links.modify link (·.modify s f) }

/-- Takes the next port for a socket that asks for any. -/
def takePort : StateM Network UInt16 := do
  let net ← get
  set { net with nextPort := net.nextPort + 1 }
  return UInt16.ofNat net.nextPort

/-- The live datagram socket bound exactly to an endpoint. -/
def udpAt? (net : Network) (addr : Endpoint) : Option (SocketId × List Datagram) :=
  net.sockets.findSome? fun
    | (id, .udp bound queue) => if bound = some addr then some (id, queue) else none
    | _ => none

/-- The live listening socket bound exactly to an endpoint, with its backlog and what waits. -/
def listenerAt? (net : Network) (addr : Endpoint) : Option (SocketId × Nat × List (Nat × Endpoint)) :=
  net.sockets.findSome? fun
    | (id, .tcp bound (.listening backlog waiting)) =>
      if bound = some addr then some (id, backlog, waiting) else none
    | _ => none

/-- A listening socket at an endpoint that has room for one more connection. -/
def roomAt? (net : Network) (addr : Endpoint) : Option (SocketId × Nat × List (Nat × Endpoint)) :=
  (net.listenerAt? addr).filter fun (_, backlog, waiting) => waiting.length < backlog

/-! ## Faults -/

/-- Removes the first entry for a call, if there is one. -/
def popFault (call : HostCall) : List (HostCall × Fault) → Option Fault × List (HostCall × Fault)
  | [] => (none, [])
  | entry :: rest =>
    if entry.1 = call then (some entry.2, rest)
    else
      let (fault, rest) := popFault call rest
      (fault, entry :: rest)

/-- Removes the interruptions that come first among the faults of a call. -/
def skipInterrupts (call : HostCall) : List (HostCall × Fault) → List (HostCall × Fault)
  | [] => []
  | entry :: rest =>
    if entry.1 = call then
      if entry.2 = .error .eintr then skipInterrupts call rest else entry :: rest
    else entry :: skipInterrupts call rest

/-- Makes a call, unless it was made to fail. `onZero` is the answer of a call that was made to
take or find nothing. -/
def attempt {α : Type} (call : HostCall) (onZero : Option α) (body : StateM Network (Except Errno α)) :
    StateM Network (Except Errno α) := fun net =>
  match popFault call net.faults, onZero with
  | (some (.error e), rest), _ => (.error e, { net with faults := rest })
  | (some .zero, rest), some answer => (.ok answer, { net with faults := rest })
  | (_, rest), _ => body { net with faults := rest }

/-- Makes a call again for as long as it was made to be interrupted. -/
def uninterrupted {α : Type} (call : HostCall) (body : StateM Network (Except Errno α)) :
    StateM Network (Except Errno α) := do
  modify fun net => { net with faults := skipInterrupts call net.faults }
  body

/-! ## Calls -/

def tcpSocket : StateM Network (Except Errno SocketId) :=
  attempt .socket none do return .ok (← addSocket (.tcp none .fresh))

def udpSocket : StateM Network (Except Errno SocketId) :=
  attempt .socket none do return .ok (← addSocket (.udp none []))

/-- Another live socket stands in the way of binding: a datagram socket at the same endpoint for a
datagram socket, a listening one for a stream socket. -/
def occupied (net : Network) (s : NetSocket) (addr : Endpoint) : Bool :=
  match s with
  | .udp _ _ => (net.udpAt? addr).isSome
  | .tcp _ _ => (net.listenerAt? addr).isSome

def bind (id : SocketId) (addr : Endpoint) : StateM Network (Except Errno Unit) :=
  attempt .bind none do
    match (← get).socket? id with
    | none => return .error .ebadf
    | some s =>
      if s.addr?.isSome then return .error .einval
      if !(addr.ip.isLoopback || addr.ip = Ipv4.unspecified) then return .error .eaddrnotavail
      let port ← if addr.port = 0 then takePort else pure addr.port
      let addr : Endpoint := ⟨addr.ip, port⟩
      if (← get).occupied s addr then return .error .eaddrinuse
      modify fun net => net.setSocket id (match s with
        | .udp _ queue => .udp (some addr) queue
        | .tcp _ stage => .tcp (some addr) stage)
      return .ok ()

def listen (id : SocketId) (backlog : Nat) : StateM Network (Except Errno Unit) :=
  attempt .listen none do
    match (← get).socket? id with
    | none => return .error .ebadf
    | some (.tcp addr _) =>
      modify (·.setSocket id (.tcp addr (.listening backlog [])))
      return .ok ()
    | some (.udp _ _) => return .error .eopnotsupp

/-- Starts a connection. A listening socket at the destination with room takes it; else an outside
server there answers as declared; else it is refused, which shows later. -/
def connect (id : SocketId) (dest : Endpoint) : StateM Network (Except Errno Unit) :=
  attempt .connect none do
    match (← get).socket? id with
    | none => return .error .ebadf
    | some (.udp _ _) => return .error .eopnotsupp
    | some (.tcp addr _) =>
      let source : Endpoint ← match addr with
        | some addr => pure addr
        | none => pure ⟨Ipv4.localhost, ← takePort⟩
      let enter (stage : StreamStage) : StateM Network Unit :=
        modify (·.setSocket id (.tcp (some source) stage))
      let net ← get
      match net.roomAt? dest with
      | some (listener, backlog, waiting) =>
        let link ← addLink false false
        enter (.connected link .opener dest)
        modify (·.setSocket listener
          (.tcp (some dest) (.listening backlog (waiting ++ [(link, source)]))))
        return .error .einprogress
      | none =>
        match net.servers.lookup dest with
        | some .accept =>
          enter (.connected (← addLink false true) .opener dest)
          return .error .einprogress
        | some .sync =>
          enter (.connected (← addLink false true) .opener dest)
          return .ok ()
        | some .pending =>
          enter (.connecting dest)
          return .error .einprogress
        | none =>
          enter (.failed (some .econnrefused))
          return .error .einprogress

def takeError (id : SocketId) : StateM Network (Except Errno (Option Errno)) :=
  attempt .takeError none do
    match (← get).socket? id with
    | some (.tcp addr (.failed error)) =>
      modify (·.setSocket id (.tcp addr (.failed none)))
      return .ok error
    | some _ => return .ok none
    | none => return .error .ebadf

def peerName (id : SocketId) : StateM Network (Except Errno Endpoint) :=
  attempt .peerName none do
    match (← get).socket? id with
    | some (.tcp _ (.connected _ _ peer)) => return .ok peer
    | some _ => return .error .enotconn
    | none => return .error .ebadf

/-- Sets an option of a socket by the given call; nothing depends on it. -/
def setOption (call : HostCall) (_id : SocketId) : StateM Network (Except Errno Unit) :=
  attempt call none do return .ok ()

/-- Takes the oldest waiting connection. An attempt that a signal interrupts is made again. -/
def accept (id : SocketId) : StateM Network (Except Errno (SocketId × Endpoint)) :=
  uninterrupted .accept <| attempt .accept none do
    match (← get).socket? id with
    | some (.tcp addr (.listening backlog waiting)) =>
      match waiting with
      | [] => return .error .eagain
      | (link, peer) :: waiting =>
        modify (·.setSocket id (.tcp addr (.listening backlog waiting)))
        let accepted ← addSocket (.tcp addr (.connected link .answerer peer))
        return .ok (accepted, peer)
    | some _ => return .error .einval
    | none => return .error .ebadf

/-- The connection that a stream socket holds a side of. -/
def linkOf? (net : Network) (id : SocketId) : Option (Nat × Side × Link) :=
  match net.socket? id with
  | some (.tcp _ (.connected link side _)) => net.links[link]?.map fun l => (link, side, l)
  | _ => none

/-- Waiting bytes of a stream; none once the other side has closed and everything was read. -/
def available (l : Link) (side : Side) : Except Errno Bytes :=
  if (l.side side).reset then .error .econnreset
  else if (l.side side).inbox ≠ [] then .ok (l.side side).inbox
  else if (l.side side.other).closed then .ok []
  else .error .eagain

def peek (id : SocketId) (len : Nat) : StateM Network (Except Errno Nat) :=
  attempt .peek (some 0) do
    match (← get).linkOf? id with
    | none => return .error .enotconn
    | some (_, side, l) => return (available l side).map fun bytes => min len bytes.length

def read (id : SocketId) (len : Nat) : StateM Network (Except Errno Bytes) :=
  attempt .read (some []) do
    match (← get).linkOf? id with
    | none => return .error .enotconn
    | some (link, side, l) =>
      match available l side with
      | .error e => return .error e
      | .ok bytes =>
        modify (·.modifySide link side fun s => { s with inbox := bytes.drop len })
        return .ok (bytes.take len)

/-- How many of the given number of bytes a side may send now. -/
def sendable (l : Link) (side : Side) (len : Nat) : Except Errno Nat :=
  if (l.side side).reset then .error .econnreset
  else if (l.side side.other).closed then .error .epipe
  else
    let taken := match (l.side side).window with
      | some room => min len room
      | none => len
    if taken = 0 then .error .eagain else .ok taken

/-- Sends bytes, as many as the window allows. -/
def transmit (id : SocketId) (data : Bytes) : StateM Network (Except Errno Nat) := fun net =>
  match net.linkOf? id with
  | none => (.error .enotconn, net)
  | some (link, side, l) =>
    match sendable l side data.length with
    | .error e => (.error e, net)
    | .ok taken =>
      let sent := net.modifySide link side fun s => { s with window := s.window.map (· - taken) }
      (.ok taken, sent.modifySide link side.other fun s => { s with inbox := s.inbox ++ data.take taken })

def write (id : SocketId) (data : Bytes) : StateM Network (Except Errno Nat) :=
  attempt .write (some 0) (transmit id data)

def peekFrom (id : SocketId) (len : Nat) : StateM Network (Except Errno Nat) :=
  attempt .peekFrom none do
    match (← get).socket? id with
    | some (.udp _ (d :: _)) => return .ok (min len d.payload.length)
    | some (.udp _ []) => return .error .eagain
    | some (.tcp _ _) => return .error .enotconn
    | none => return .error .ebadf

/-- Takes the oldest waiting datagram; what is longer than `len` is lost. -/
def receiveFrom (id : SocketId) (len : Nat) : StateM Network (Except Errno (Bytes × Endpoint)) :=
  attempt .receiveFrom none do
    match (← get).socket? id with
    | some (.udp addr (d :: queue)) =>
      modify (·.setSocket id (.udp addr queue))
      return .ok (d.payload.take len, d.source)
    | some (.udp _ []) => return .error .eagain
    | some (.tcp _ _) => return .error .enotconn
    | none => return .error .ebadf

/-- Queues a datagram at the live socket bound exactly to its destination; tells whether there is
one. -/
def queueDatagram (dest : Endpoint) (d : Datagram) : StateM Network Bool := do
  match (← get).udpAt? dest with
  | none => return false
  | some (id, queue) =>
    modify (·.setSocket id (.udp (some dest) (queue ++ [d])))
    return true

def sendTo (id : SocketId) (data : Bytes) (dest : Endpoint) : StateM Network (Except Errno Unit) :=
  attempt .sendTo none do
    match (← get).socket? id with
    | none => return .error .ebadf
    | some s =>
      if dest.ip = Ipv4.broadcast then return .error .eacces
      if dest.port = 0 then return .error .einval
      let source := s.addr?.getD ⟨Ipv4.unspecified, 0⟩
      modify fun net => { net with log := .datagram source dest data :: net.log }
      let _ ← queueDatagram dest ⟨source, data⟩
      return .ok ()

/-- Joins a group; nothing is ever delivered to it. -/
def joinGroup (_id : SocketId) (group iface : Ipv4) : StateM Network (Except Errno Unit) :=
  attempt .joinGroup none do
    if !group.isMulticast then return .error .einval
    if !(iface.isLoopback || iface = Ipv4.unspecified) then return .error .enodev
    modify fun net => { net with log := .joined group iface :: net.log }
    return .ok ()

def closeSide (net : Network) (link : Nat) (side : Side) : Network :=
  net.modifySide link side fun s => { s with closed := true }

/-- Connections that wait for a listener are closed on its side and reset on the other. -/
def abandon (net : Network) (waiting : List (Nat × Endpoint)) : Network :=
  waiting.foldl
    (fun net entry =>
      (net.closeSide entry.1 .answerer).modifySide entry.1 .opener fun s => { s with reset := true })
    net

def close (id : SocketId) : StateM Network Unit := do
  let net ← get
  let net := match net.socket? id with
    | some (.tcp _ (.connected link side _)) => net.closeSide link side
    | some (.tcp _ (.listening _ waiting)) => net.abandon waiting
    | _ => net
  set { net with sockets := net.sockets.filter fun entry => entry.1 ≠ id }

/-- Local endpoint; an unbound socket shows the unspecified one. -/
def localAddr (net : Network) (id : SocketId) : Option Endpoint :=
  (net.socket? id).map fun s => s.addr?.getD ⟨Ipv4.unspecified, 0⟩

/-! ## Interruptions -/

/-- How many writes were made to be interrupted. -/
def interruptions (net : Network) : Nat := net.faults.count (.write, .error .eintr)

/-- A write that is made is not interrupted. -/
theorem transmit_ne_eintr (id : SocketId) (data : Bytes) (net : Network) :
    (transmit id data net).1 ≠ .error .eintr := by
  have sendable_ne (l : Link) (side : Side) (len : Nat) : sendable l side len ≠ .error .eintr := by
    unfold sendable
    grind
  unfold transmit
  split
  · simp
  · split
    · rename_i refused
      intro same
      exact sendable_ne _ _ _ (refused.trans same)
    · simp

/-- What is popped was in the queue. -/
theorem perm_of_popFault {call : HostCall} {fault : Fault} {faults rest : List (HostCall × Fault)}
    (popped : popFault call faults = (some fault, rest)) : faults.Perm ((call, fault) :: rest) := by
  induction faults generalizing rest with
  | nil => cases popped
  | cons entry faults ih =>
    rw [popFault] at popped
    split at popped
    · rename_i same
      cases popped
      rw [← same]
    · cases later : popFault call faults with
      | mk found left =>
        rw [later] at popped
        cases popped
        exact ((ih later).cons entry).trans (.swap ..)

/-- An interrupted write was made to be, and that is used up. -/
theorem interruptions_write_lt {id : SocketId} {data : Bytes} {net : Network}
    (interrupted : (write id data net).1 = .error .eintr) :
    interruptions (write id data net).2 < interruptions net := by
  unfold write attempt at *
  rcases popped : popFault .write net.faults with ⟨_ | e | _, rest⟩ <;> rw [popped] at interrupted
  · exact absurd interrupted (transmit_ne_eintr id data _)
  · obtain rfl := Except.error.inj interrupted
    show rest.count _ < net.faults.count _
    rw [(perm_of_popFault popped).count_eq, List.count_cons_self]
    exact Nat.lt_succ_self _
  · cases interrupted

end Network

instance : NetHost Network where
  tcpSocket := Network.tcpSocket
  udpSocket := Network.udpSocket
  bind := Network.bind
  listen := Network.listen
  connect := Network.connect
  takeError := Network.takeError
  peerName := Network.peerName
  setNonBlocking := Network.setOption .nonBlocking
  setReuseAddress := Network.setOption .reuseAddress
  setNoDelay := Network.setOption .noDelay
  accept := Network.accept
  peek := Network.peek
  read := Network.read
  write := Network.write
  interruptions _ _ := Network.interruptions
  interruptions_lt := Network.interruptions_write_lt
  peekFrom := Network.peekFrom
  receiveFrom := Network.receiveFrom
  sendTo := Network.sendTo
  joinGroup := Network.joinGroup
  close := Network.close
  localAddr := Network.localAddr
  clock net := net.clock.toNat

end EtherChip

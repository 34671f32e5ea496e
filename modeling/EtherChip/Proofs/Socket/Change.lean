import EtherChip.Proofs.Host.Stages
import EtherChip.Proofs.Socket.Trace
import Mathlib.Logic.Relation

/-!
# What an event can do to a socket

The ways in which a socket is changed are listed once: a quiet change leaves the receive ring and
what is shown of it alone, a closed socket can be opened again, and the others are the constructors
of `Change`. Every event but loading is a chain of changes, whatever the host answers
(`step_changes`), so an invariant of sockets is shown by one case for each kind of change
(`Change.trace_keeps`). A change carries the status in which it happens and the stage of the host
socket that it leaves.

What an event hands to the receive ring is a function of the socket and the host (`arriving`);
`Absorbs` says that nothing else about receiving has changed.
-/
namespace EtherChip

/-- Registers that show the other end of an accepted connection. -/
def RegisterBank.showPeer (r : RegisterBank) (peer : Endpoint) : RegisterBank :=
  (r.setDestAddr peer.ip).setWord Cell.destPort peer.port

/-- The bytes that have been taken from a stream. -/
def StreamEvent.bytes? : StreamEvent → Option Bytes
  | .data bytes => some bytes
  | _ => none

namespace Engine

/-- A socket whose host socket has been given back. -/
def closed (e : Engine) : Engine :=
  enter { e with host := .none, protocol := none, sendEnd := none } .closed

/-- A closed socket at OPEN, before it has a host socket again. -/
def emptied (e : Engine) : Engine := resetPointers { e with host := .none }

/-- A socket whose chip-side transmit position has moved. -/
def showSent (e : Engine) (position : RingOffset) : Engine :=
  showFree { e with regs := e.regs.setWord Cell.txRead position.toWord }

/-- A socket on a stream at SEND. -/
def capture (e : Engine) : Engine := { e with sendEnd := some e.txWrite }

/-- A socket that has taken bytes into its receive ring. -/
def appended (e : Engine) (data : Bytes) : Engine :=
  (showReceived { e with rx := (e.rx.copyIn e.rxWrite data).1
                         rxWrite := (e.rx.copyIn e.rxWrite data).2 }).raise Interrupt.received

theorem deliver_eq (e : Engine) (data : Bytes) :
    e.deliver data = if data.length ≤ e.rxRoom then e.appended data else e := by
  unfold deliver deliver?
  split
  · rw [if_neg (by omega)]; rfl
  · rw [if_pos (by omega)]; rfl

@[simp] theorem status_deliver (e : Engine) (data : Bytes) : (e.deliver data).status = e.status := by
  rw [deliver_eq]
  split <;> rfl

@[simp] theorem status_store (e : Engine) (cell : Nat) (value : UInt8) :
    (e.store cell value).status = e.status := by
  unfold store
  repeat' split
  all_goals rfl

@[simp] theorem host_showSent (e : Engine) (position : RingOffset) : (e.showSent position).host = e.host := by
  dsimp only [showSent, showFree]

@[simp] theorem status_showSent (e : Engine) (position : RingOffset) :
    (e.showSent position).status = e.status := by
  dsimp only [showSent, showFree]

@[simp] theorem host_completeSend (e : Engine) (position : RingOffset) :
    (e.completeSend position).host = e.host := by
  dsimp only [completeSend, showFree, raise]

@[simp] theorem status_completeSend (e : Engine) (position : RingOffset) :
    (e.completeSend position).status = e.status := by
  dsimp only [completeSend, showFree, raise]

/-! ## Kinds of change -/

/-- One kind of change that does not concern receiving. -/
inductive Quiet (e : Engine) : Engine → Prop
  | storedTx (o : RingOffset) (value : UInt8) : Quiet e (e.storeTx o value)
  | connecting (id : SocketId) (dest : Endpoint) : e.status = .init →
      Quiet e { e with host := .connecting id dest }
  | listening (id : SocketId) : e.status = .init →
      Quiet e (enter { e with host := .listener id } .listen)
  /-- A failed connection gives way to a new stream socket. -/
  | renewed (id : SocketId) : e.status = .init → Quiet e { e with host := .tcp id }
  | connected (id : SocketId) : e.status = .init →
      Quiet e (enter { e with host := .stream id } .established)
  | accepted (id : SocketId) (peer : Endpoint) : e.status = .listen →
      Quiet e (enter { e with regs := e.regs.showPeer peer, host := .stream id } .established)
  /-- SEND on a stream. -/
  | captured : e.status = .established → Quiet e e.capture
  /-- A SEND on a stream has handed over a part. -/
  | advanced (position : RingOffset) : e.status = .established → Quiet e (e.showSent position)
  | flushed (position : RingOffset) : e.status = .established →
      Quiet e (completeSend { e with sendEnd := none } position)
  | dispatched (position : RingOffset) : e.status = .udpReady → Quiet e (e.completeSend position)
  | released : Quiet e e.closed

/-- A chain of quiet changes. -/
abbrev Quiets : Engine → Engine → Prop := Relation.ReflTransGen Quiet

/-- How OPEN leaves a closed socket. -/
inductive Reopened (e : Engine) : Engine → Prop
  /-- The host gives no socket. -/
  | failed : Reopened e e.emptied
  | stream (id : SocketId) :
      Reopened e (enter { e.emptied with host := .tcp id, protocol := some .tcp } .init)
  | datagram (id : SocketId) :
      Reopened e (enter { e.emptied with host := .datagram id, protocol := some .udp } .udpReady)

/-- One kind of change of a socket, loading apart. -/
inductive Change (e : Engine) : Engine → Prop
  | quiet {e' : Engine} : Quiet e e' → Change e e'
  | stored (cell : Nat) (value : UInt8) : cell ≠ Cell.command → Change e (e.store cell value)
  | storedRx (o : RingOffset) (value : UInt8) : Change e (e.storeRx o value)
  | delivered (data : Bytes) : data.length ≤ e.rxRoom → Change e (e.appended data)
  | acknowledged : e.status = .established ∨ e.status = .udpReady → Change e e.showReceived
  | reopened {e' : Engine} : e.status = .closed → Reopened e e' → Change e e'
  | restored : Change e powerOn

/-- A chain of changes. -/
abbrev Changes : Engine → Engine → Prop := Relation.ReflTransGen Change

theorem Change.chain {e e' : Engine} (h : Change e e') : Changes e e' := .single h

theorem Quiet.chain {e e' : Engine} (h : Quiet e e') : Quiets e e' := .single h

theorem changes_of_quiets {e e' : Engine} (h : Quiets e e') : Changes e e' := 
  Relation.ReflTransGen.mono (fun _ _ => Change.quiet) _ _ h

theorem changes_deliver (e : Engine) (data : Bytes) : Changes e (e.deliver data) := by
  rw [deliver_eq]
  split
  · exact (Change.delivered data ‹_›).chain
  · exact .refl

/-- What arrives has been handed to the receive ring, and nothing else about receiving has
changed. -/
def Absorbs (e : Engine) : (arrived : Option Bytes) → Engine → Prop
  | none, e' => Quiets e e'
  | some data, e' => ∃ mid, Quiets e mid ∧ Quiets (mid.deliver data) e'

theorem Absorbs.changes {e e' : Engine} {arrived : Option Bytes} (h : Absorbs e arrived e') :
    Changes e e' := by
  cases arrived with
  | none => exact changes_of_quiets h
  | some data =>
    obtain ⟨mid, before, after⟩ := h
    exact ((changes_of_quiets before).trans (changes_deliver mid data)).trans (changes_of_quiets after)

theorem absorbs_deliver (e : Engine) (data : Bytes) : Absorbs e (some data) (e.deliver data) :=
  ⟨e, .refl, .refl⟩

/-! ## What arrives -/

/-- What is stored of a datagram that has been taken: its header, then its bytes. -/
def stored? : Except HostError DatagramEvent → Option Bytes
  | .ok (.received source bytes) => some (receiveHeader source bytes.length ++ bytes)
  | _ => none

variable {ν : Type} [NetHost ν]

/-- What a poll hands to the receive ring. -/
def polled? (e : Engine) (net : ν) : Option Bytes :=
  match e.status with
  | .established =>
    let flushed := e.flushStream net
    (flushed.1.host.receiveStream e.rxRoom flushed.2).1.bytes?
  | .udpReady => stored? (e.host.receiveDatagram e.rxRoom net).1
  | _ => none

theorem polled?_established {e : Engine} (h : e.status = .established) (net : ν) :
    e.polled? net =
      ((e.flushStream net).1.host.receiveStream e.rxRoom (e.flushStream net).2).1.bytes? := by
  unfold polled?
  rw [h]

theorem polled?_udpReady {e : Engine} (h : e.status = .udpReady) (net : ν) :
    e.polled? net = stored? (e.host.receiveDatagram e.rxRoom net).1 := by
  unfold polled?
  rw [h]

/-- What a built-in service answers to a datagram. -/
def answered? (e : Engine) (cfg : NetConfig) (data : Bytes) (net : ν) : Option Bytes :=
  if e.regs.word Cell.destPort = dhcpServerPort then some (Dhcp.respond data cfg.bindAddr cfg.serverAddr)
  else if e.regs.word Cell.destPort = ntpPort then
    Sntp.respond? data cfg.serverAddr (NetHost.clock net)
  else none

/-- What a command hands to the receive ring: the answer to a datagram that SEND gives to a built-in
service. -/
def replied? (e : Engine) (cfg : NetConfig) (command : Option Command) (net : ν) : Option Bytes :=
  let len := RingOffset.distance e.txRead e.txWrite
  if e.status = .udpReady ∧ command = some .send ∧ len ≠ 0 then
    e.answered? cfg (e.tx.copyOut e.txRead len) net
  else none

/-- What an event hands to the receive ring. -/
def arriving (e : Engine) (net : ν) : Event → Option Bytes
  | .write cfg cell code => if cell = Cell.command then e.replied? cfg (Command.ofCode? code) net else none
  | .command cfg code => e.replied? cfg (Command.ofCode? code) net
  | .deliver data => some data
  | .poll => e.polled? net
  | _ => none

/-! ## Commands -/

theorem openStream_reopened (e : Engine) : Always (e.emptied.openStream : StateM ν _) (Reopened e) := by
  refine .bind HostSocket.always_openTcp fun r stage => ?_
  cases r with
  | error _ => exact .pure .failed
  | ok host =>
    obtain ⟨id, rfl⟩ := stage host rfl
    exact .pure (.stream id)

theorem openDatagram_reopened (e : Engine) (cfg : NetConfig) :
    Always (e.emptied.openDatagram cfg : StateM ν _) (Reopened e) := by
  refine .bind (HostSocket.always_openUdp _) fun r stage => ?_
  cases r with
  | error _ => exact .pure .failed
  | ok host =>
    obtain ⟨id, rfl⟩ := stage host rfl
    dsimp only
    split
    · exact .bind (.any _) fun _ _ => .pure (.datagram id)
    · exact .pure (.datagram id)

/-- OPEN does nothing unless the mode names a protocol. -/
theorem openSocket_cases (e : Engine) (cfg : NetConfig) :
    Always (e.openSocket cfg : StateM ν _) fun e' =>
      ((Protocol.ofMode? (e.regs.get Cell.mode)).isSome → Reopened e e') ∧
      (¬ (Protocol.ofMode? (e.regs.get Cell.mode)).isSome → e' = e) := by
  unfold openSocket
  cases Protocol.ofMode? (e.regs.get Cell.mode) with
  | none => exact .pure ⟨nofun, fun _ => rfl⟩
  | some protocol =>
    refine .bind (.any _) fun _ _ => ?_
    cases protocol with
    | tcp => exact (openStream_reopened e).mono fun _ h => ⟨fun _ => h, fun no => absurd rfl no⟩
    | udp => exact (openDatagram_reopened e cfg).mono fun _ h => ⟨fun _ => h, fun no => absurd rfl no⟩

theorem connect_quiets (e : Engine) (cfg : NetConfig) (h : e.status = .init) :
    Always (e.connect cfg : StateM ν _) (Quiets e) := by
  unfold connect
  split
  · exact .pure .refl
  · refine .bind (HostSocket.always_connect _ _) fun r stage => ?_
    cases r with
    | error _ => exact .pure .refl
    | ok host =>
      obtain ⟨id, rfl⟩ := stage host rfl
      exact .pure (Quiet.connecting id _ h).chain

theorem listen_quiets (e : Engine) (cfg : NetConfig) (h : e.status = .init) :
    Always (e.listen cfg : StateM ν _) (Quiets e) := by
  refine .bind (HostSocket.always_listen _ _) fun r stage => ?_
  cases r with
  | error _ => exact .pure .refl
  | ok host =>
    obtain ⟨id, rfl⟩ := stage host rfl
    exact .pure (Quiet.listening id h).chain

theorem flushStream_quiets (e : Engine) (h : e.status = .established) :
    Always (e.flushStream : StateM ν _) (Quiets e) := by
  unfold flushStream
  split
  · exact .pure .refl
  · rename_i stop _
    dsimp only
    split
    · exact .pure (Quiet.flushed stop h).chain
    · refine .bind (.any _) fun r _ => ?_
      cases r with
      | error _ => exact fun _ => Quiet.released.chain
      | ok sent =>
        dsimp only
        split
        · split
          · exact .pure .refl
          · exact .pure (Quiet.advanced _ h).chain
        · exact .pure (Quiet.flushed stop h).chain

theorem command_send (e : Engine) (cfg : NetConfig) (h : e.status = .established ∨ e.status = .udpReady) :
    (e.command cfg Command.send.code : StateM ν _) = e.send cfg := by
  unfold command
  rw [Command.ofCode?_code]
  rcases h with h | h <;> rw [h]

theorem send_established (e : Engine) (cfg : NetConfig) (h : e.status = .established) :
    (e.send cfg : StateM ν _) = e.capture.flushStream := by
  unfold send
  split
  · rfl
  · simp_all
  · contradiction

theorem send_udpReady (e : Engine) (cfg : NetConfig) (h : e.status = .udpReady) :
    (e.send cfg : StateM ν _) = e.sendWaiting cfg := by
  rw [send, h]

/-- A datagram changes a socket only through the answer of a built-in service. -/
theorem sendDatagram_eq (e : Engine) (cfg : NetConfig) (data : Bytes) (net : ν) :
    (e.sendDatagram cfg data net).1 = ((e.answered? cfg data net).map e.deliver).getD e := by
  unfold sendDatagram answered?
  split
  · rfl
  · split
    · rw [bind_run]
      dsimp only [get, getThe, MonadStateOf.get, StateT.get, pure]
      cases Sntp.respond? data cfg.serverAddr (NetHost.clock net) <;> rfl
    · rfl

theorem sendWaiting_absorbs (e : Engine) (cfg : NetConfig) (h : e.status = .udpReady) (net : ν) :
    Absorbs e (e.replied? cfg (some .send) net) (e.sendWaiting cfg net).1 := by
  unfold sendWaiting replied?
  by_cases len : RingOffset.distance e.txRead e.txWrite = 0
  · dsimp only
    rw [if_pos len, if_neg fun send => send.2.2 len]
    exact (Quiet.dispatched _ h).chain
  · dsimp only
    rw [if_neg len, if_pos ⟨h, rfl, len⟩]
    change Absorbs e _ (((e.sendDatagram cfg _ net).1).completeSend _)
    rw [sendDatagram_eq]
    cases e.answered? cfg (e.tx.copyOut e.txRead (RingOffset.distance e.txRead e.txWrite)) net with
    | none => exact (Quiet.dispatched _ h).chain
    | some data => exact ⟨e, .refl, (Quiet.dispatched _ ((status_deliver e data).trans h)).chain⟩

/-- OPEN on a closed socket whose mode names a protocol. -/
def Reopens (e : Engine) (command : Option Command) : Prop :=
  command = some .openSocket ∧ e.status = .closed ∧ (Protocol.ofMode? (e.regs.get Cell.mode)).isSome

/-- RECV on a socket that can receive. -/
def Acknowledges (e : Engine) (command : Option Command) : Prop :=
  command = some .receive ∧ (e.status = .established ∨ e.status = .udpReady)

instance (e : Engine) (command : Option Command) : Decidable (e.Reopens command) :=
  inferInstanceAs (Decidable (_ ∧ _))

instance (e : Engine) (command : Option Command) : Decidable (e.Acknowledges command) :=
  inferInstanceAs (Decidable (_ ∧ _))

theorem replied?_eq_none (e : Engine) (cfg : NetConfig) {command : Option Command} (net : ν)
    (h : ¬ (e.status = .udpReady ∧ command = some .send)) : e.replied? cfg command net = none :=
  if_neg fun send => h ⟨send.1, send.2.1⟩

theorem command_reopened (e : Engine) (cfg : NetConfig) (code : UInt8)
    (h : e.Reopens (Command.ofCode? code)) : Always (e.command cfg code : StateM ν _) (Reopened e) := by
  obtain ⟨command, status, supported⟩ := h
  rw [Engine.command, status, command]
  exact (openSocket_cases e cfg).mono fun _ opened => opened.1 supported

theorem command_acknowledged (e : Engine) (cfg : NetConfig) (code : UInt8)
    (h : e.Acknowledges (Command.ofCode? code)) (net : ν) :
    (e.command cfg code net).1 = e.showReceived := by
  obtain ⟨command, status | status⟩ := h <;> rw [Engine.command, status, command] <;> rfl

/-- What else a command does concerns receiving only through the answer of a built-in service. -/
theorem command_absorbs (e : Engine) (cfg : NetConfig) (code : UInt8) (net : ν)
    (opens : ¬ e.Reopens (Command.ofCode? code)) (acknowledges : ¬ e.Acknowledges (Command.ofCode? code)) :
    Absorbs e (e.replied? cfg (Command.ofCode? code) net) (e.command cfg code net).1 := by
  by_cases dispatch : e.status = .udpReady ∧ Command.ofCode? code = some .send
  · rw [Engine.command, Engine.send, dispatch.1, dispatch.2]
    exact sendWaiting_absorbs e cfg dispatch.1 net
  rw [replied?_eq_none e cfg net dispatch]
  suffices quiets : Always (e.command cfg code : StateM ν _) (Quiets e) from quiets net
  unfold command
  generalize Command.ofCode? code = command at *
  split
  case h_1 status =>
    refine (openSocket_cases e cfg).mono fun _ opened => ?_
    rw [opened.2 fun supported => opens ⟨rfl, status, supported⟩]
  case h_2 status => exact connect_quiets e cfg status
  case h_3 status => exact listen_quiets e cfg status
  case h_10 status =>
    rw [send_established e cfg status]
    exact (flushStream_quiets e.capture status).mono
      fun _ flushed => .head (.captured status) flushed
  case h_11 status => exact absurd ⟨status, rfl⟩ dispatch
  case h_12 status => exact absurd ⟨rfl, .inl status⟩ acknowledges
  case h_13 status => exact absurd ⟨rfl, .inr status⟩ acknowledges
  case h_14 => exact .pure .refl
  all_goals exact fun _ => Quiet.released.chain

/-- A command is a chain of changes. -/
theorem command_changes (e : Engine) (cfg : NetConfig) (code : UInt8) (net : ν) :
    Changes e (e.command cfg code net).1 := by
  by_cases opens : e.Reopens (Command.ofCode? code)
  · exact (Change.reopened opens.2.1 (command_reopened e cfg code opens net)).chain
  by_cases acknowledges : e.Acknowledges (Command.ofCode? code)
  · rw [command_acknowledged e cfg code acknowledges net]
    exact (Change.acknowledged acknowledges.2).chain
  · exact (command_absorbs e cfg code net opens acknowledges).changes

/-! ## Polling -/

theorem pollListener_quiets (e : Engine) (h : e.status = .listen) :
    Always (e.pollListener : StateM ν _) (Quiets e) := by
  refine .bind (HostSocket.always_acceptNext _) fun r ⟨stream, same⟩ => ?_
  obtain ⟨answer, host⟩ := r
  rcases answer with _ | _ | peer
  · obtain rfl := same nofun
    exact .pure .refl
  · obtain rfl := same nofun
    exact .pure .refl
  · obtain ⟨id, rfl⟩ := stream peer rfl
    exact .pure (Quiet.accepted id peer h).chain

theorem pollConnect_quiets (e : Engine) (h : e.status = .init) :
    Always (e.pollConnect : StateM ν _) (Quiets e) := by
  refine .bind (HostSocket.always_finishConnect _) fun r ⟨stream, same⟩ => ?_
  obtain ⟨answer, host⟩ := r
  rcases answer with _ | _ | peer
  · refine .bind HostSocket.always_openTcp fun r stage => ?_
    cases r with
    | error _ => exact fun _ => Quiet.released.chain
    | ok fresh =>
      obtain ⟨id, rfl⟩ := stage fresh rfl
      exact .bind (.any _) fun _ _ => .pure (Quiet.renewed id h).chain
  · obtain rfl := same rfl
    exact .pure .refl
  · obtain ⟨id, rfl⟩ := stream peer rfl
    exact .pure (Quiet.connected id h).chain

/-- A poll concerns receiving only through what it takes from the host. -/
theorem poll_absorbs (e : Engine) (net : ν) : Absorbs e (e.polled? net) (e.poll net).1 := by
  cases status : e.status
  case closed =>
    unfold polled? poll
    rw [status]
    exact .refl
  case init =>
    unfold polled? poll
    rw [status]
    exact pollConnect_quiets e status net
  case listen =>
    unfold polled? poll
    rw [status]
    exact pollListener_quiets e status net
  case established =>
    have flushed := flushStream_quiets e status net
    rw [polled?_established status, poll, status]
    dsimp only
    rw [bind_run]
    generalize e.flushStream net = mid at flushed ⊢
    rw [pollStream, bind_run]
    generalize mid.1.host.receiveStream e.rxRoom mid.2 = found
    cases found.1 with
    | idle => exact flushed
    | data bytes => exact ⟨mid.1, flushed, .refl⟩
    | closed => exact flushed.tail .released
  case udpReady =>
    rw [polled?_udpReady status, poll, status]
    dsimp only
    rw [pollDatagram, bind_run]
    generalize e.host.receiveDatagram e.rxRoom net = found
    rcases found.1 with _ | _ | _ | _ | _
    case ok.received => exact absorbs_deliver e _
    all_goals exact .refl

/-! ## Events -/

/-- **Every event but loading is a chain of changes.** -/
theorem step_changes (e : Engine) (event : Event) (net : ν) (h : event.isLoad = false) :
    Changes e (e.step event net).1 := by
  cases event with
  | write cfg cell value =>
    dsimp only [step]
    unfold writeRegister
    split
    · exact command_changes e cfg value net
    · exact (Change.stored cell value ‹_›).chain
  | command cfg code => exact command_changes e cfg code net
  | storeTx o value => exact (Change.quiet (.storedTx o value)).chain
  | storeRx o value => exact (Change.storedRx o value).chain
  | deliver data => exact changes_deliver e data
  | poll => exact (poll_absorbs e net).changes
  | reset => exact Change.restored.chain
  | load state => exact absurd h.symm Bool.false_ne_true

/-- What every kind of change keeps, and every loaded socket has, is kept by every event. -/
theorem Change.step_keeps {P : Engine → Prop} (keep : ∀ {e e'}, Change e e' → P e → P e') {e : Engine}
    (h : P e) (event : Event) (net : ν) (loaded : event.isLoad → ∀ state, P (ofState state)) :
    P (e.step event net).1 := by
  cases load : event.isLoad
  · have chain := step_changes e event net load
    generalize (e.step event net).1 = e' at chain ⊢
    induction chain with
    | refl => exact h
    | tail _ change ih => exact keep change ih
  · cases event with
    | load state => exact loaded load state
    | _ => exact absurd load Bool.false_ne_true

/-- What every kind of change keeps, and every loaded socket has, holds after every history. -/
theorem Change.trace_keeps {P : Engine → Prop} (keep : ∀ {e e'}, Change e e' → P e → P e') {e : Engine}
    (h : P e) (events : List (Event × ν))
    (loaded : ∀ event ∈ events, event.1.isLoad → ∀ state, P (ofState state)) : P (e.trace events) := by
  induction events generalizing e with
  | nil => exact h
  | cons event events ih =>
    exact ih (step_keeps keep h event.1 event.2 (loaded event (.head _)))
      fun event mem => loaded event (.tail _ mem)

end Engine

end EtherChip

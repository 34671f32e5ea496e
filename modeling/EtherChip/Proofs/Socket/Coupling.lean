import EtherChip.Proofs.Host.Coupling
import EtherChip.Proofs.Socket.Transmit

/-!
# Sockets on hosts that answer alike

Two sockets that differ in nothing but the identity of their host sockets stay so, whatever is done to
them, as long as their hosts agree. One lemma for each operation that asks the host; commands, register
writes and polls are put together from them.
-/
namespace EtherChip.Engine

/-- The socket with another host socket behind it. -/
def withHost (e : Engine) (host : HostSocket) : Engine := { e with host := host }

/-- The same socket, up to the identity of its host socket. -/
def Alike (ids : SocketId → SocketId → Prop) (e e' : Engine) : Prop :=
  ∃ host', e.host.Alike ids host' ∧ e' = e.withHost host'

section

variable {ids : SocketId → SocketId → Prop} {e e' : Engine}

theorem alike_powerOn : Alike ids powerOn powerOn := ⟨.none, .none, rfl⟩

theorem alike_ofState (state : SocketState) : Alike ids (ofState state) (ofState state) := ⟨.none, .none, rfl⟩

/-- A change that has nothing to do with the host socket. -/
theorem Alike.map (h : e.Alike ids e') (f : Engine → Engine)
    (apart : ∀ (e : Engine) host, f (e.withHost host) = (f e).withHost host) : (f e).Alike ids (f e') := by
  obtain ⟨host', alike, rfl⟩ := h
  have same : e.withHost e.host = e := rfl
  have kept := congrArg Engine.host (apart e e.host)
  rw [same] at kept
  exact ⟨host', kept ▸ alike, apart e host'⟩

theorem Alike.regs (h : e.Alike ids e') : e'.regs = e.regs := by
  obtain ⟨host', -, rfl⟩ := h
  rfl

theorem Alike.tx (h : e.Alike ids e') : e'.tx = e.tx := by
  obtain ⟨host', -, rfl⟩ := h
  rfl

theorem Alike.rx (h : e.Alike ids e') : e'.rx = e.rx := by
  obtain ⟨host', -, rfl⟩ := h
  rfl

theorem Alike.rxWrite (h : e.Alike ids e') : e'.rxWrite = e.rxWrite := by
  obtain ⟨host', -, rfl⟩ := h
  rfl

theorem Alike.status (h : e.Alike ids e') : e'.status = e.status := by
  obtain ⟨host', -, rfl⟩ := h
  rfl

theorem Alike.protocol (h : e.Alike ids e') : e'.protocol = e.protocol := by
  obtain ⟨host', -, rfl⟩ := h
  rfl

theorem Alike.sendEnd (h : e.Alike ids e') : e'.sendEnd = e.sendEnd := by
  obtain ⟨host', -, rfl⟩ := h
  rfl

theorem Alike.host (h : e.Alike ids e') : e.host.Alike ids e'.host := by
  obtain ⟨host', alike, rfl⟩ := h
  exact alike

theorem Alike.txRead (h : e.Alike ids e') : e'.txRead = e.txRead := congrArg (·.pointer Cell.txRead) h.regs

theorem Alike.txWrite (h : e.Alike ids e') : e'.txWrite = e.txWrite := congrArg (·.pointer Cell.txWrite) h.regs

theorem deliver_withHost (e : Engine) (host : HostSocket) (data : Bytes) :
    (e.withHost host).deliver data = (e.deliver data).withHost host := by
  have room : (e.withHost host).rxRoom = e.rxRoom := rfl
  rw [deliver_eq, deliver_eq, room]
  split
  · rfl
  · rfl

theorem Alike.deliver (h : e.Alike ids e') (data : Bytes) : (e.deliver data).Alike ids (e'.deliver data) :=
  h.map (fun e => e.deliver data) fun e host => e.deliver_withHost host data

theorem store_withHost (e : Engine) (host : HostSocket) (cell : Nat) (value : UInt8) :
    (e.withHost host).store cell value = (e.store cell value).withHost host := by
  unfold store
  split
  · rfl
  split
  · rfl
  split
  · rfl
  split
  · rfl
  split <;> rfl

theorem Alike.store (h : e.Alike ids e') (cell : Nat) (value : UInt8) :
    (e.store cell value).Alike ids (e'.store cell value) :=
  h.map (fun e => e.store cell value) fun e host => e.store_withHost host cell value

theorem Alike.storeTx (h : e.Alike ids e') (o : RingOffset) (value : UInt8) :
    (e.storeTx o value).Alike ids (e'.storeTx o value) := h.map (·.storeTx o value) fun _ _ => rfl

theorem Alike.storeRx (h : e.Alike ids e') (o : RingOffset) (value : UInt8) :
    (e.storeRx o value).Alike ids (e'.storeRx o value) := h.map (·.storeRx o value) fun _ _ => rfl

theorem Alike.completeSend (h : e.Alike ids e') (position : RingOffset) :
    (e.completeSend position).Alike ids (e'.completeSend position) :=
  h.map (fun e => e.completeSend position) fun _ _ => rfl

theorem Alike.showSent (h : e.Alike ids e') (position : RingOffset) :
    (e.showSent position).Alike ids (e'.showSent position) :=
  h.map (fun e => e.showSent position) fun _ _ => rfl

theorem Alike.withSendEnd (h : e.Alike ids e') (stop : Option RingOffset) :
    Alike ids { e with sendEnd := stop } { e' with sendEnd := stop } :=
  h.map (fun e => { e with sendEnd := stop }) fun _ _ => rfl

theorem Alike.capture (h : e.Alike ids e') : e.capture.Alike ids e'.capture := h.map (·.capture) fun _ _ => rfl

theorem Alike.showReceived (h : e.Alike ids e') : e.showReceived.Alike ids e'.showReceived :=
  h.map (fun e => e.showReceived) fun _ _ => rfl

theorem Alike.readRegister (h : e.Alike ids e') (cell : Nat) : e.readRegister cell = e'.readRegister cell := by
  obtain ⟨host', -, rfl⟩ := h
  rfl

theorem Alike.save (h : e.Alike ids e') : e.save = e'.save := by
  obtain ⟨host', -, rfl⟩ := h
  rfl

theorem Alike.isConnecting (h : e.Alike ids e') : e.isConnecting = e'.isConnecting := by
  obtain ⟨host', alike, rfl⟩ := h
  exact HostSocket.Alike.isConnecting alike

end

variable {ν ν' : Type} [NetHost ν] [NetHost ν'] {R : ν → ν' → Prop} {ids : SocketId → SocketId → Prop}
  (agree : HostsAgree R ids) {e e' : Engine}

open HostSocket

include agree

/-! ## Commands -/

theorem couple_release (h : e.Alike ids e') : Couple R e.release e'.release (Alike ids) := by
  obtain ⟨host', alike, rfl⟩ := h
  exact .bind (couple_close agree alike) fun _ _ _ => .pure ⟨.none, .none, rfl⟩

theorem couple_openStream (h : e.Alike ids e') : Couple R e.openStream e'.openStream (Alike ids) := by
  obtain ⟨host', alike, rfl⟩ := h
  refine .bind (couple_openTcp agree) ?_
  rintro _ _ (fresh | _)
  · exact .pure ⟨_, fresh, rfl⟩
  · exact .pure ⟨_, alike, rfl⟩

theorem couple_openDatagram (h : e.Alike ids e') (cfg : NetConfig) :
    Couple R (e.openDatagram cfg) (e'.openDatagram cfg) (Alike ids) := by
  obtain ⟨host', alike, rfl⟩ := h
  refine .bind (couple_openUdp agree (e.localEndpoint cfg)) ?_
  rintro _ _ (fresh | _)
  · refine .ite (fun _ => .bind (couple_joinGroup agree fresh _ _) fun _ _ _ => ?_) fun _ => ?_
    · exact .pure ⟨_, fresh, rfl⟩
    · exact .pure ⟨_, fresh, rfl⟩
  · exact .pure ⟨_, alike, rfl⟩

theorem couple_openSocket (h : e.Alike ids e') (cfg : NetConfig) :
    Couple R (e.openSocket cfg) (e'.openSocket cfg) (Alike ids) := by
  obtain ⟨host', alike, rfl⟩ := h
  have mode : (e.withHost host').regs = e.regs := rfl
  unfold openSocket
  rw [mode]
  cases Protocol.ofMode? (e.regs.get Cell.mode) with
  | none => exact .pure ⟨_, alike, rfl⟩
  | some protocol =>
    refine .bind (couple_close agree alike) fun _ _ _ => ?_
    have emptied : Alike ids (resetPointers { e with host := .none }) (resetPointers { e with host := .none }) :=
      ⟨_, .none, rfl⟩
    cases protocol with
    | tcp => exact couple_openStream agree emptied
    | udp => exact couple_openDatagram agree emptied cfg

theorem couple_connect (h : e.Alike ids e') (cfg : NetConfig) :
    Couple R (e.connect cfg) (e'.connect cfg) (Alike ids) := by
  have connecting := h.isConnecting
  obtain ⟨host', alike, rfl⟩ := h
  unfold connect
  rw [← connecting]
  refine .ite (fun _ => .pure ⟨_, alike, rfl⟩) fun _ => ?_
  refine .bind (HostSocket.couple_connect agree alike (e.destEndpoint cfg)) ?_
  rintro _ _ (started | _)
  · exact .pure ⟨_, started, rfl⟩
  · exact .pure ⟨_, alike, rfl⟩

theorem couple_listen (h : e.Alike ids e') (cfg : NetConfig) :
    Couple R (e.listen cfg) (e'.listen cfg) (Alike ids) := by
  obtain ⟨host', alike, rfl⟩ := h
  refine .bind (HostSocket.couple_listen agree alike (e.localEndpoint cfg)) ?_
  rintro _ _ (listening | _)
  · exact .pure ⟨_, listening, rfl⟩
  · exact .pure ⟨_, alike, rfl⟩

theorem couple_flushStream (h : e.Alike ids e') : Couple R e.flushStream e'.flushStream (Alike ids) := by
  cases pending : e.sendEnd with
  | none =>
    rw [flushStream_of_none pending, flushStream_of_none (h.sendEnd.trans pending)]
    exact .pure h
  | some stop =>
    rw [flushStream_of_some pending, flushStream_of_some (h.sendEnd.trans pending), h.txRead]
    have complete := (h.withSendEnd none).completeSend stop
    have asked : Couple R (e.host.sendStream (e.tx.copyOut e.txRead (RingOffset.distance e.txRead stop)))
        (e'.host.sendStream (e'.tx.copyOut e.txRead (RingOffset.distance e.txRead stop))) Eq := by
      rw [h.tx]
      exact couple_sendStream agree h.host _
    refine .ite (fun _ => .pure complete) fun _ => .bind asked ?_
    rintro (error | sent) _ rfl
    · exact couple_release agree h
    · exact .ite (fun _ => .ite (fun _ => .pure h) fun _ => .pure (h.showSent _)) fun _ => .pure complete

/-- One datagram: the built-in services answer the same requests in the same way, and see the same
time. -/
theorem couple_sendDatagram (h : e.Alike ids e') (cfg : NetConfig) (data : Bytes) :
    Couple R (e.sendDatagram cfg data) (e'.sendDatagram cfg data) (Alike ids) := by
  have port : e'.regs.word Cell.destPort = e.regs.word Cell.destPort := by rw [h.regs]
  have dest : e'.destEndpoint cfg = e.destEndpoint cfg := by rw [destEndpoint, destEndpoint, h.regs]
  unfold sendDatagram
  rw [port, dest]
  refine .ite (fun _ => .pure (h.deliver _)) fun _ => .ite (fun _ => ?_) fun _ => ?_
  · intro net net' now
    rw [get_run, get_run, agree.clock now]
    cases Sntp.respond? data cfg.serverAddr (NetHost.clock net') with
    | some reply => exact ⟨h.deliver reply, now⟩
    | none => exact ⟨h, now⟩
  · exact .bind (HostSocket.couple_sendDatagram agree h.host data _) fun _ _ _ => .pure h

theorem couple_sendWaiting (h : e.Alike ids e') (cfg : NetConfig) :
    Couple R (e.sendWaiting cfg) (e'.sendWaiting cfg) (Alike ids) := by
  have data : e'.tx.copyOut e'.txRead (RingOffset.distance e'.txRead e'.txWrite) =
      e.tx.copyOut e.txRead (RingOffset.distance e.txRead e.txWrite) := by rw [h.tx, h.txRead, h.txWrite]
  unfold sendWaiting
  dsimp only
  rw [data, h.txRead, h.txWrite]
  -- the bytes are the same ones; they are named so that no record update is unfolded below
  generalize e.tx.copyOut e.txRead (RingOffset.distance e.txRead e.txWrite) = bytes
  by_cases empty : RingOffset.distance e.txRead e.txWrite = 0
  · rw [if_pos empty, if_pos empty]
    exact .bind (.pure h) fun _ _ sent => .pure (sent.completeSend _)
  · rw [if_neg empty, if_neg empty]
    exact .bind (couple_sendDatagram agree h cfg bytes) fun _ _ sent => .pure (sent.completeSend _)

theorem couple_send (h : e.Alike ids e') (cfg : NetConfig) :
    Couple R (e.send cfg) (e'.send cfg) (Alike ids) := by
  cases status : e.status with
  | established =>
    rw [send_established e cfg status, send_established e' cfg (h.status.trans status)]
    exact couple_flushStream agree h.capture
  | udpReady =>
    rw [send_udpReady e cfg status, send_udpReady e' cfg (h.status.trans status)]
    exact couple_sendWaiting agree h cfg
  | closed | init | listen =>
    rw [send, send, h.status, status]
    exact .pure h

theorem couple_command (h : e.Alike ids e') (cfg : NetConfig) (b : UInt8) :
    Couple R (e.command cfg b) (e'.command cfg b) (Alike ids) := by
  unfold command
  rw [h.status]
  split
  · exact couple_openSocket agree h cfg
  · exact couple_connect agree h cfg
  · exact couple_listen agree h cfg
  all_goals first
    | exact couple_release agree h
    | exact couple_send agree h cfg
    | exact .pure h.showReceived
    | exact .pure h

theorem couple_writeRegister (h : e.Alike ids e') (cfg : NetConfig) (cell : Nat) (value : UInt8) :
    Couple R (e.writeRegister cfg cell value) (e'.writeRegister cfg cell value) (Alike ids) :=
  .ite (fun _ => couple_command agree h cfg value) fun _ => .pure (h.store cell value)

theorem couple_reset (h : e.Alike ids e') : Couple R e.reset e'.reset (Alike ids) :=
  .bind (couple_close agree h.host) fun _ _ _ => .pure alike_powerOn

theorem couple_load (h : e.Alike ids e') (state : SocketState) :
    Couple R (e.load state) (e'.load state) (Alike ids) :=
  .bind (couple_close agree h.host) fun _ _ _ => .pure (alike_ofState state)

/-! ## Polls -/

theorem couple_pollListener (h : e.Alike ids e') : Couple R e.pollListener e'.pollListener (Alike ids) := by
  obtain ⟨host', alike, rfl⟩ := h
  refine .bind (couple_acceptNext agree alike) ?_
  rintro ⟨answer, host⟩ ⟨_, after⟩ ⟨rfl, same⟩
  rcases answer with _ | _ | peer
  · exact .pure ⟨_, same, rfl⟩
  · exact .pure ⟨_, same, rfl⟩
  · exact .pure ⟨_, same, rfl⟩

theorem couple_pollConnect (h : e.Alike ids e') : Couple R e.pollConnect e'.pollConnect (Alike ids) := by
  obtain ⟨host', alike, rfl⟩ := h
  refine .bind (couple_finishConnect agree alike) ?_
  rintro ⟨answer, host⟩ ⟨_, after⟩ ⟨rfl, same⟩
  rcases answer with _ | _ | peer
  · refine .bind (couple_openTcp agree) ?_
    rintro _ _ (fresh | _)
    · exact .bind (couple_close agree same) fun _ _ _ => .pure ⟨_, fresh, rfl⟩
    · exact couple_release agree ⟨_, same, rfl⟩
  · exact .pure ⟨_, same, rfl⟩
  · exact .pure ⟨_, same, rfl⟩

theorem couple_pollStream (h : e.Alike ids e') (room : Nat) :
    Couple R (e.pollStream room) (e'.pollStream room) (Alike ids) := by
  refine .bind (couple_receiveStream agree h.host room) ?_
  rintro (_ | bytes | _) _ rfl
  · exact .pure h
  · exact .pure (h.deliver bytes)
  · exact couple_release agree h

theorem couple_pollDatagram (h : e.Alike ids e') (room : Nat) :
    Couple R (e.pollDatagram room) (e'.pollDatagram room) (Alike ids) := by
  refine .bind (couple_receiveDatagram agree h.host room) ?_
  rintro (_ | _ | _ | ⟨source, bytes⟩) _ rfl
  all_goals first
    | exact .pure h
    | exact .pure (h.deliver _)

theorem couple_poll (h : e.Alike ids e') : Couple R e.poll e'.poll (Alike ids) := by
  have room : e'.rxRoom = e.rxRoom := by
    unfold rxRoom unread rxRead
    rw [h.regs, h.rxWrite]
  unfold poll
  rw [room, h.status]
  cases e.status with
  | closed => exact .pure h
  | init => exact couple_pollConnect agree h
  | listen => exact couple_pollListener agree h
  | established => exact .bind (couple_flushStream agree h) fun _ _ flushed => couple_pollStream agree flushed _
  | udpReady => exact couple_pollDatagram agree h _

end EtherChip.Engine

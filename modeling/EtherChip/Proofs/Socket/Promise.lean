import EtherChip.Host.Network
import EtherChip.Proofs.Socket.Pointers
import EtherChip.Proofs.Socket.Stage
import EtherChip.Proofs.Socket.Transmit

/-!
# The promise of the free size

The free size tells the firmware how many bytes it may store before the next SEND. `SendPromise`
says what it may expect then: all waiting bytes and then the new ones reach the host, once and in
order, in one datagram or, on a stream, piece by piece as the host takes them, and SEND is not
reported complete before. The promise is kept exactly if the new bytes do not fill the ring
(`send_promise`): positions of a full ring coincide like those of an empty one, so then SEND hands
nothing over, says that it is complete, and the bytes are gone.
-/
namespace EtherChip.Engine

open RingOffset Recorded

/-! ## Queueing bytes -/

/-- The firmware stores bytes in the transmit ring, one by one. -/
def storeTxAll (e : Engine) (o : RingOffset) : Bytes → Engine
  | [] => e
  | b :: bs => (e.storeTx o b).storeTxAll (o.advance 1) bs

/-- The firmware moves its write position, high byte first. -/
def moveTxWrite (e : Engine) (o : RingOffset) : Engine :=
  (e.store Cell.txWrite (highByte o.toWord)).store (Cell.txWrite + 1) (lowByte o.toWord)

/-- The firmware stores bytes from its write position on and moves the position past them. -/
def queue (e : Engine) (d : Bytes) : Engine :=
  (e.storeTxAll e.txWrite d).moveTxWrite (e.txWrite.advance d.length)

theorem storeTxAll_eq (e : Engine) (o : RingOffset) (d : Bytes) :
    e.storeTxAll o d = { e with tx := e.tx.setAll o d } := by
  induction d generalizing e o with
  | nil => rfl
  | cons b bs ih => rw [storeTxAll, ih]; rfl

theorem store_txWrite (e : Engine) (value : UInt8) :
    e.store Cell.txWrite value = showFree { e with regs := e.regs.set Cell.txWrite (pointerHigh value) } := by
  rw [store, if_neg (by decide), if_neg (by decide), if_pos rfl]

theorem store_txWrite_low (e : Engine) (value : UInt8) :
    e.store (Cell.txWrite + 1) value = showFree { e with regs := e.regs.set (Cell.txWrite + 1) value } := by
  rw [store, if_neg (by decide), if_neg (by decide), if_neg (by decide), if_pos rfl]

/-- Moving the write position changes the registers only, and of the cells before it only those of
the free size. -/
theorem moveTxWrite_eq (e : Engine) (o : RingOffset) : ∃ regs, e.moveTxWrite o = { e with regs := regs } ∧
    regs.word Cell.txWrite = o.toWord ∧
    ∀ cell < Cell.txWrite, cell ≠ Cell.txFree → cell ≠ Cell.txFree + 1 → regs.get cell = e.regs.get cell := by
  unfold moveTxWrite
  rw [store_txWrite_low, store_txWrite, RegisterBank.pointerHigh_highByte_toWord]
  dsimp only [showFree]
  refine ⟨_, rfl, ?_, fun cell low free free' => ?_⟩
  · rw [RegisterBank.word_setWord_of_apart _ _ (by decide), RegisterBank.word_set_low _ _ (by decide),
      RegisterBank.get_setWord_of_ne _ _ (by decide) (by decide), RegisterBank.get_set_self _ _ (by decide),
      wordOf_highByte_lowByte]
  · rw [RegisterBank.get_setWord_of_ne _ _ free free', RegisterBank.get_set_of_ne _ _ (by omega),
      RegisterBank.get_setWord_of_ne _ _ free free', RegisterBank.get_set_of_ne _ _ (by omega)]

/-- What a socket is after bytes have been queued. -/
structure Queued (e : Engine) (d : Bytes) (e' : Engine) : Prop where
  status : e'.status = e.status
  host : e'.host = e.host
  sendEnd : e'.sendEnd = e.sendEnd
  tx : e'.tx = e.tx.setAll e.txWrite d
  txWrite : e'.txWrite = e.txWrite.advance d.length
  low : ∀ cell < Cell.txWrite, cell ≠ Cell.txFree → cell ≠ Cell.txFree + 1 →
    e'.regs.get cell = e.regs.get cell

theorem queued_queue (e : Engine) (d : Bytes) : Queued e d (e.queue d) := by
  obtain ⟨regs, moved, txWrite, low⟩ := moveTxWrite_eq (e.storeTxAll e.txWrite d) (e.txWrite.advance d.length)
  rw [storeTxAll_eq] at moved low
  unfold queue
  rw [storeTxAll_eq, moved]
  exact ⟨rfl, rfl, rfl, rfl, RegisterBank.pointer_of_word txWrite, low⟩

namespace Queued

variable {e e' : Engine} {d : Bytes}

theorem word (h : Queued e d e') {cell : Nat} (low : cell + 1 < Cell.txWrite)
    (apart : cell + 1 < Cell.txFree ∨ Cell.txFree + 1 < cell) : e'.regs.word cell = e.regs.word cell := by
  rw [RegisterBank.word, h.low _ (by omega) (by omega) (by omega), h.low _ low (by omega) (by omega),
    RegisterBank.word]

theorem txRead (h : Queued e d e') : e'.txRead = e.txRead := by
  rw [Engine.txRead, RegisterBank.pointer, h.word (by decide) (by decide)]
  rfl

theorem destEndpoint (h : Queued e d e') (cfg : NetConfig) : e'.destEndpoint cfg = e.destEndpoint cfg := by
  have low (cell : Nat) (lt : cell < Cell.txFree) : e'.regs.get cell = e.regs.get cell :=
    h.low cell (by simp only [Cell.txFree, Cell.txWrite] at *; omega) (by omega) (by omega)
  rw [Engine.destEndpoint, RegisterBank.destAddr, h.word (by decide) (by decide), low _ (by decide),
    low _ (by decide), low _ (by decide), low _ (by decide)]
  rfl

/-- Unless the ring is full then, the bytes between the transmit pointers are those that waited and
the new ones. -/
theorem waiting (h : Queued e d e') (room : distance e.txRead e.txWrite + d.length < ringSize) :
    distance e'.txRead e'.txWrite = distance e.txRead e.txWrite + d.length ∧
    e'.waiting = e.waiting ++ d := by
  have far : distance e'.txRead e'.txWrite = distance e.txRead e.txWrite + d.length := by
    rw [h.txRead, h.txWrite, distance_advance_right, Nat.mod_eq_of_lt room]
  refine ⟨far, ?_⟩
  rw [Engine.waiting, far, h.txRead, h.tx, Engine.waiting]
  exact (Ring.written_setAll _ _ (by omega)).copyOut_append (Nat.le_of_lt room)

/-- If the ring is full then, its positions coincide. -/
theorem full (h : Queued e d e') (room : distance e.txRead e.txWrite + d.length = ringSize) :
    e'.txRead = e'.txWrite := by
  rw [← distance_eq_zero, h.txRead, h.txWrite, distance_advance_right, room, Nat.mod_self]

end Queued

/-! ## Runs -/

variable {ν : Type} [NetHost ν]

/-- A history in which each event meets a host with an empty record. -/
def watched (events : List (Event × ν)) : List (Event × Recorded ν) :=
  events.map fun event => (event.1, .fresh event.2)

/-- Socket after a history. -/
def after (e : Engine) (events : List (Event × ν)) : Engine := e.trace (watched events)

/-- The calls of a history that hand bytes to the host. -/
def handover (e : Engine) : List (Event × ν) → List Handover
  | [] => []
  | (event, net) :: events =>
    let (e', r) := e.step event (Recorded.fresh net)
    r.handed ++ handover e' events

/-- A history in which the status stays, no further SEND is given, and the firmware leaves pending
bytes alone. -/
def Undisturbed (e : Engine) : List (Event × ν) → Prop
  | [] => True
  | (event, net) :: events =>
    let e' := (e.step event (Recorded.fresh net)).1
    event.command? ≠ some .send ∧ e.Spares event ∧ e'.status = e.status ∧ Undisturbed e' events

section Cons

variable {e e' : Engine} {event : Event} {net : ν} {r : Recorded ν}

theorem after_cons (run : e.step event (Recorded.fresh net) = (e', r)) (later : List (Event × ν)) :
    e.after ((event, net) :: later) = e'.after later := by
  rw [after, watched, List.map_cons, trace_cons, run]
  rfl

theorem handover_cons (run : e.step event (Recorded.fresh net) = (e', r)) (later : List (Event × ν)) :
    e.handover ((event, net) :: later) = r.handed ++ e'.handover later := by
  rw [handover, run]

theorem undisturbed_cons (run : e.step event (Recorded.fresh net) = (e', r)) {later : List (Event × ν)} :
    Undisturbed e ((event, net) :: later) ↔
      event.command? ≠ some .send ∧ e.Spares event ∧ e'.status = e.status ∧ Undisturbed e' later := by
  rw [Undisturbed, run]

end Cons

theorem exists_run (e : Engine) (event : Event) (r : Recorded ν) : ∃ e' r', e.step event r = (e', r') :=
  ⟨_, _, rfl⟩

theorem after_append (e : Engine) (events later : List (Event × ν)) :
    e.after (events ++ later) = (e.after events).after later := by
  rw [after, watched, List.map_append, trace_append]
  rfl

theorem handover_append (e : Engine) (events later : List (Event × ν)) :
    e.handover (events ++ later) = e.handover events ++ (e.after events).handover later := by
  induction events generalizing e with
  | nil => rfl
  | cons event events ih =>
    obtain ⟨event, net⟩ := event
    obtain ⟨e', r, run⟩ := exists_run e event (.fresh net)
    rw [List.cons_append, handover_cons run, handover_cons run, after_cons run, ih, List.append_assoc]

theorem undisturbed_append {e : Engine} {events later : List (Event × ν)}
    (h : Undisturbed e (events ++ later)) : Undisturbed e events ∧ Undisturbed (e.after events) later := by
  induction events generalizing e with
  | nil => exact ⟨trivial, h⟩
  | cons event events ih =>
    obtain ⟨event, net⟩ := event
    obtain ⟨e', r, run⟩ := exists_run e event (.fresh net)
    obtain ⟨noSend, spares, stays, rest⟩ := (undisturbed_cons run).mp h
    obtain ⟨here, there⟩ := ih rest
    exact ⟨(undisturbed_cons run).mpr ⟨noSend, spares, stays, here⟩, after_cons run events ▸ there⟩

/-- What is promised for SEND on a stream with the bytes `all` between the transmit pointers, while
the connection is up: at every time what has been taken and what is pending are all the bytes; SEND is
not reported complete before all are taken; and SEND and every poll leave bytes only if the host
refused them. -/
def StreamPromise (ν : Type) [NetHost ν] (start : Engine) (send : Event) (all : Bytes) : Prop :=
  ∀ (net : ν) (later : List (Event × ν)),
    (start.after [(send, net)]).status = .established → Undisturbed (start.after [(send, net)]) later →
    let run := (send, net) :: later
    ∃ id, start.host = .stream id ∧ WritesTo id (start.handover run) ∧
      takenBytes (start.handover run) ++ (start.after run).pending = all ∧
      ∀ before last, run = before ++ [last] →
        ((start.after run).SendOk → (start.after before).SendOk ∨ takenBytes (start.handover run) = all) ∧
        (last.1 = send ∨ last.1 = .poll →
          takenBytes (start.handover run) = all ∨ Refused id (start.after run) (start.handover run))

/-- What is promised for SEND on a datagram socket: all bytes go out in one datagram, at once, and
never again. -/
def DatagramPromise (ν : Type) [NetHost ν] (start : Engine) (send : Event) (dest : Endpoint) (all : Bytes) :
    Prop :=
  ∀ (net : ν) (later : List (Event × ν)), Undisturbed (start.after [(send, net)]) later →
    ∃ id answer, start.host = .datagram id ∧
      start.handover ((send, net) :: later) = [.datagram id all dest answer]

/-- **The promise of the free size** for the bytes that the firmware stores before a SEND. -/
def SendPromise (ν : Type) [NetHost ν] (cfg : NetConfig) (e : Engine) (d : Bytes) : Prop :=
  let send := Event.command cfg Command.send.code
  (e.status = .established → StreamPromise ν (e.queue d) send (e.waiting ++ d)) ∧
  (e.status = .udpReady → DatagramPromise ν (e.queue d) send (e.destEndpoint cfg) (e.waiting ++ d))

/-! ## Streams -/

theorem Hands.trans {e mid e' : Engine} {id : SocketId} {calls later : List Handover}
    (h : Hands id e calls mid) (h' : Hands id mid later e') : Hands id e (calls ++ later) e' where
  writes := h.writes.append h'.writes
  bytes := by rw [takenBytes_append, List.append_assoc, h'.bytes, h.bytes]
  drained := h'.drained
  flag up := (h'.flag up).elim (fun up => (h.flag up).imp_right fun none => by
    have whole := h'.bytes
    rw [none] at whole
    exact (List.append_eq_nil_iff.mp whole).2) .inr
  host := h'.host

/-- **Run.** What a step hands over, a history hands over. -/
theorem run_hands {e : Engine} {id : SocketId} {later : List (Event × ν)} (host : e.host = .stream id)
    (status : e.status = .established) (drained : e.pending = [] → e.sendEnd = none)
    (h : Undisturbed e later) :
    Hands id e (e.handover later) (e.after later) ∧ (e.after later).status = .established := by
  induction later generalizing e with
  | nil => exact ⟨(apart_refl e).hands host drained, status⟩
  | cons event later ih =>
    obtain ⟨event, net⟩ := event
    obtain ⟨mid, r, run⟩ := exists_run e event (.fresh net)
    obtain ⟨noSend, spares, stays, rest⟩ := (undisturbed_cons run).mp h
    have up := stays.trans status
    obtain ⟨calls, handed, hands, -⟩ := step_hands host status drained noSend spares run up
    rw [after_cons run, handover_cons run, handed]
    exact ⟨hands.trans (ih hands.host up hands.drained rest).1, (ih hands.host up hands.drained rest).2⟩

/-- SEND on a stream hands over what lies between the transmit pointers. -/
theorem send_hands {start e' : Engine} {r r' : Recorded ν} {cfg : NetConfig} {id : SocketId}
    (host : start.host = .stream id) (status : start.status = .established)
    (run : start.command cfg Command.send.code r = (e', r')) (up : e'.status = .established) :
    ∃ calls, r'.handed = r.handed ++ calls ∧ Hands id start.capture calls e' ∧
      (e'.pending = [] ∨ Refused id e' calls) := by
  rw [command_send start cfg (.inl status), send_established start cfg status] at run
  exact flush_hands host rfl run up

theorem Refused.append {e : Engine} {id : SocketId} {later : List Handover} (h : Refused id e later)
    (calls : List Handover) : Refused id e (calls ++ later) := by
  rw [Refused, List.getLast?_append, h, Option.some_or]

/-- **SEND on a stream keeps the promise for the bytes between the transmit pointers.** -/
theorem streamPromise {start : Engine} {id : SocketId} (host : start.host = .stream id)
    (status : start.status = .established) (cfg : NetConfig) :
    StreamPromise ν start (.command cfg Command.send.code) start.waiting := by
  intro net later up quiet run
  obtain ⟨e₁, r₁, sent⟩ := exists_run start (.command cfg Command.send.code) (Recorded.fresh net)
  rw [after_cons sent []] at up quiet
  obtain ⟨calls, handed, hands, refused⟩ := send_hands host status sent up
  have first (later : List (Event × ν)) :
      start.handover ((.command cfg Command.send.code, net) :: later) = calls ++ e₁.handover later := by
    rw [handover_cons sent, handed]
    rfl
  have whole := hands.trans (run_hands hands.host up hands.drained quiet).1
  rw [first, after_cons sent]
  have all (none : (e₁.after later).pending = []) : takenBytes (calls ++ e₁.handover later) = start.waiting := by
    rw [← pending_capture, ← whole.bytes, none, List.append_nil]
  refine ⟨id, host, whole.writes, whole.bytes.trans (pending_capture start), fun before last split => ?_⟩
  cases before with
  | nil =>
    obtain ⟨rfl, rfl⟩ := List.cons.inj split
    exact ⟨fun up => (hands.flag up).imp_right all, fun _ =>
      refused.imp all fun refused => (List.append_nil calls).symm ▸ refused⟩
  | cons event before =>
    obtain ⟨rfl, (tail : later = before ++ [last])⟩ := List.cons.inj split
    subst tail
    obtain ⟨early, late⟩ := undisturbed_append quiet
    obtain ⟨here, up'⟩ := run_hands hands.host up hands.drained early
    rw [after_cons sent, after_append]
    rw [after_append] at all
    rw [handover_append] at all ⊢
    generalize early' : e₁.after before = mid at here up' late all ⊢
    obtain ⟨event, net⟩ := last
    obtain ⟨e', r', ran⟩ := exists_run mid event (.fresh net)
    have late : Undisturbed mid [(event, net)] := early' ▸ late
    obtain ⟨noSend, spares, stays, -⟩ := (undisturbed_cons ran).mp late
    obtain ⟨calls', handed', hands', refused'⟩ :=
      step_hands here.host up' here.drained noSend spares ran (stays.trans up')
    have last : mid.handover [(event, net)] = calls' := by
      rw [handover_cons ran, handed']
      exact List.append_nil _
    rw [after_cons ran, last] at all ⊢
    refine ⟨fun up => (hands'.flag up).imp_right all, fun which => ?_⟩
    rcases which with rfl | rfl
    · exact absurd rfl noSend
    · exact (refused' rfl).imp all fun refused => (refused.append _).append _

/-! ## Datagrams -/

theorem silent_command {e : Engine} {cfg : NetConfig} {code : UInt8} (status : e.status = .udpReady)
    (noSend : Command.ofCode? code ≠ some .send) : Silent (e.command cfg code : StateM (Recorded ν) Engine) := by
  unfold command
  rw [status]
  generalize Command.ofCode? code = command at noSend
  rcases command with _ | command
  · exact .pure _
  cases command with
  | send => exact absurd rfl noSend
  | disconnect | close => exact silent_release e
  | openSocket | listen | connect | receive => exact .pure _

/-- An open datagram socket hands nothing over but at SEND. -/
theorem silent_step {e : Engine} {event : Event} (status : e.status = .udpReady)
    (noSend : event.command? ≠ some .send) : Silent (e.step event : StateM (Recorded ν) Engine) := by
  cases event with
  | write cfg cell code =>
    dsimp only [step, Event.command?] at noSend ⊢
    unfold writeRegister
    split
    · rename_i command
      rw [if_pos command] at noSend
      exact silent_command status noSend
    · exact .pure _
  | command cfg code => exact silent_command status noSend
  | storeTx | storeRx | deliver => exact .pure _
  | poll =>
    dsimp only [step]
    rw [poll, status]
    refine .bind (silent_receiveDatagram _ _) fun found => ?_
    split <;> exact .pure _
  | reset => exact .bind (silent_close _) fun _ => .pure _
  | load state => exact .bind (silent_close _) fun _ => .pure _

theorem silent_run {e : Engine} {later : List (Event × ν)} (status : e.status = .udpReady)
    (h : Undisturbed e later) : e.handover later = [] := by
  induction later generalizing e with
  | nil => rfl
  | cons event later ih =>
    obtain ⟨event, net⟩ := event
    obtain ⟨mid, r, run⟩ := exists_run e event (.fresh net)
    obtain ⟨noSend, -, stays, rest⟩ := (undisturbed_cons run).mp h
    have silent := silent_step status noSend (Recorded.fresh net)
    rw [run] at silent
    rw [handover_cons run, ih (stays.trans status) rest, List.append_nil]
    exact silent

theorem sendWaiting_host {e : Engine} {cfg : NetConfig} (noDhcp : e.regs.word Cell.destPort ≠ dhcpServerPort)
    (noNtp : e.regs.word Cell.destPort ≠ ntpPort) (some : distance e.txRead e.txWrite ≠ 0) :
    (e.sendWaiting cfg : StateM ν Engine) = do
      let _ ← e.host.sendDatagram e.waiting (e.destEndpoint cfg)
      return e.completeSend (e.txRead.advance (distance e.txRead e.txWrite)) := by
  unfold sendWaiting sendDatagram waiting
  dsimp only
  rw [if_neg some, if_neg noDhcp, if_neg noNtp]
  simp only [bind_assoc, pure_bind]

/-- SEND hands what lies between the transmit pointers over in one datagram. -/
theorem send_datagram {start e' : Engine} {r r' : Recorded ν} {cfg : NetConfig} {id : SocketId}
    (host : start.host = .datagram id) (status : start.status = .udpReady)
    (noDhcp : start.regs.word Cell.destPort ≠ dhcpServerPort)
    (noNtp : start.regs.word Cell.destPort ≠ ntpPort) (some : distance start.txRead start.txWrite ≠ 0)
    (run : start.command cfg Command.send.code r = (e', r')) :
    e'.status = .udpReady ∧
    ∃ answer, r'.handed = r.handed ++ [.datagram id start.waiting (start.destEndpoint cfg) answer] := by
  obtain ⟨answer, handed⟩ := sendDatagram_handed id start.waiting (start.destEndpoint cfg) r
  rw [command_send start cfg (.inr status), send_udpReady start cfg status,
    sendWaiting_host noDhcp noNtp some, host] at run
  simp only [bind, StateT.bind] at run
  obtain ⟨rfl, rfl⟩ := pure_run run
  exact ⟨(status_completeSend _ _).trans status, answer, handed⟩

/-- **SEND on a datagram socket keeps the promise for the bytes between the transmit pointers,** if
there are any. -/
theorem datagramPromise {start : Engine} {id : SocketId} (host : start.host = .datagram id)
    (status : start.status = .udpReady) (noDhcp : start.regs.word Cell.destPort ≠ dhcpServerPort)
    (noNtp : start.regs.word Cell.destPort ≠ ntpPort) (some : distance start.txRead start.txWrite ≠ 0)
    (cfg : NetConfig) :
    DatagramPromise ν start (.command cfg Command.send.code) (start.destEndpoint cfg) start.waiting := by
  intro net later quiet
  obtain ⟨e₁, r₁, sent⟩ := exists_run start (.command cfg Command.send.code) (Recorded.fresh net)
  rw [after_cons sent []] at quiet
  obtain ⟨ready, answer, handed⟩ := send_datagram host status noDhcp noNtp some sent
  refine ⟨id, answer, host, ?_⟩
  rw [handover_cons sent, handed, silent_run ready quiet]
  rfl

/-! ## The full ring -/

theorem sendOk_completeSend (e : Engine) (position : RingOffset) : (e.completeSend position).SendOk := by
  rw [SendOk, completeSend, interrupt_raise, Ne, UInt8.or_eq_zero_iff]
  exact fun none => absurd none.2 (by decide)

theorem txRead_completeSend (e : Engine) (position : RingOffset) : (e.completeSend position).txRead = position := by
  unfold completeSend raise Engine.txRead RegisterBank.pointer
  dsimp only
  rw [RegisterBank.word_set_of_apart _ _ (by decide) (by decide)]
  exact txRead_showSent e position

theorem waiting_completeSend {e : Engine} {position : RingOffset} (h : e.txWrite = position) :
    (e.completeSend position).waiting = [] := by
  have txWrite : (e.completeSend position).txWrite = position := by
    rw [← h]
    unfold completeSend raise showFree Engine.txWrite RegisterBank.pointer
    dsimp only
    rw [RegisterBank.word_set_of_apart _ _ (by decide) (by decide),
      RegisterBank.word_setWord_of_apart _ _ (by decide), RegisterBank.word_setWord_of_apart _ _ (by decide)]
  rw [waiting, txRead_completeSend, txWrite, distance_self, Ring.copyOut_zero]

@[simp] theorem sendEnd_completeSend (e : Engine) (position : RingOffset) :
    (e.completeSend position).sendEnd = e.sendEnd := by
  dsimp only [completeSend, showFree, raise]

/-- When the transmit pointers coincide, SEND hands nothing over, says that it is complete, and leaves
nothing to be sent. -/
theorem send_nothing {start : Engine} (same : start.txRead = start.txWrite)
    (ready : start.status = .established ∨ start.status = .udpReady ∧ start.sendEnd = none)
    (cfg : NetConfig) (r : Recorded ν) :
    ∃ e, start.command cfg Command.send.code r = (e, r) ∧ e.status = start.status ∧
      e.SendOk ∧ e.sendEnd = none ∧ e.waiting = [] := by
  have nothing : distance start.txRead start.txWrite = 0 := distance_eq_zero.mpr same
  rcases ready with status | ⟨status, drained⟩
  · rw [command_send start cfg (.inl status), send_established start cfg status,
      flushStream_of_empty (e := start.capture) rfl same]
    exact ⟨_, rfl, status_completeSend _ _, sendOk_completeSend _ _, sendEnd_completeSend _ _,
      waiting_completeSend rfl⟩
  · rw [command_send start cfg (.inr status), send_udpReady start cfg status]
    refine ⟨start.completeSend start.txWrite, ?_, status_completeSend _ _, sendOk_completeSend _ _,
      (sendEnd_completeSend _ _).trans drained, waiting_completeSend rfl⟩
    unfold sendWaiting
    dsimp only
    rw [if_pos nothing, nothing, advance_zero, same]
    rfl

/-! ## When the promise is kept -/

/-- A socket that can send to the host. -/
def CanSend (e : Engine) : Prop :=
  e.status = .established ∨
  e.status = .udpReady ∧ e.regs.word Cell.destPort ≠ dhcpServerPort ∧ e.regs.word Cell.destPort ≠ ntpPort

/-- If the new bytes leave room, the promise is kept. -/
theorem promise_of_room {e : Engine} (staged : Staged e) (ready : e.CanSend) {d : Bytes} (some : 1 ≤ d.length)
    (room : distance e.txRead e.txWrite + d.length < ringSize) (cfg : NetConfig) : SendPromise ν cfg e d := by
  have queued := queued_queue e d
  obtain ⟨far, waiting⟩ := queued.waiting room
  refine ⟨fun status => ?_, fun status => ?_⟩
  · obtain ⟨id, host⟩ := staged.stream status
    rw [← waiting]
    exact streamPromise (queued.host.trans host) (queued.status.trans status) cfg
  · obtain ⟨id, host⟩ := staged.datagram status
    obtain ⟨noDhcp, noNtp⟩ : e.regs.word Cell.destPort ≠ dhcpServerPort ∧ e.regs.word Cell.destPort ≠ ntpPort :=
      ready.elim (fun stream => nomatch stream.symm.trans status) And.right
    rw [← queued.word (by decide) (by decide)] at noDhcp noNtp
    rw [← waiting, ← queued.destEndpoint cfg]
    exact datagramPromise (queued.host.trans host) (queued.status.trans status) noDhcp noNtp (by omega) cfg

/-- If the new bytes fill the ring, SEND hands nothing over and says that it is complete. -/
theorem nothing_of_full {e : Engine} (staged : Staged e) (ready : e.CanSend) {d : Bytes}
    (full : distance e.txRead e.txWrite + d.length = ringSize) (cfg : NetConfig) (r : Recorded ν) :
    ∃ e', (e.queue d).command cfg Command.send.code r = (e', r) ∧ e'.status = e.status ∧
      e'.SendOk ∧ e'.sendEnd = none ∧ e'.waiting = [] := by
  have queued := queued_queue e d
  rw [← queued.status]
  refine send_nothing (queued.full full) ?_ cfg r
  rcases ready with status | ⟨status, -⟩
  · exact .inl (queued.status.trans status)
  · have drained : e.sendEnd = none := staged.sendEnd_eq_none fun up => nomatch up.symm.trans status
    exact .inr ⟨queued.status.trans status, queued.sendEnd.trans drained⟩

theorem not_promise_of_full [Nonempty ν] {e : Engine} (staged : Staged e) (ready : e.CanSend) {d : Bytes}
    (some : 1 ≤ d.length) (full : distance e.txRead e.txWrite + d.length = ringSize) (cfg : NetConfig) :
    ¬ SendPromise ν cfg e d := by
  intro promise
  obtain ⟨net⟩ := ‹Nonempty ν›
  obtain ⟨e', sent, status', -, drained, -⟩ := nothing_of_full staged ready full cfg (Recorded.fresh net)
  have run : (e.queue d).step (.command cfg Command.send.code) (Recorded.fresh net) =
      (e', Recorded.fresh net) := sent
  have ended : (e.queue d).after [(.command cfg Command.send.code, net)] = e' := after_cons run []
  have silent : (e.queue d).handover [(.command cfg Command.send.code, net)] = [] := handover_cons run []
  rcases ready with status | ⟨status, -⟩
  · obtain ⟨id, -, -, bytes, -⟩ := promise.1 status net [] (by rw [ended, status', status]) trivial
    rw [silent, ended, pending_of_none drained] at bytes
    have none : d = [] := (List.append_eq_nil_iff.mp bytes.symm).2
    rw [none] at some
    exact absurd some (by decide)
  · obtain ⟨id, answer, -, one⟩ := promise.2 status net [] trivial
    rw [silent] at one
    exact nomatch one

/-- **Free size, kept or not.** After every history from power-on, whatever the host answers: the
promise for bytes that the free size allows is kept exactly if they do not fill the ring. If they do,
SEND hands nothing to any host, says that it is complete, and none of the bytes, the new ones and
those that waited before, is left to be sent. -/
theorem send_promise [Nonempty ν] (events : List (Event × ν)) (cfg : NetConfig) (d : Bytes)
    (ready : (powerOn.trace events).CanSend) (some : 1 ≤ d.length)
    (fits : d.length ≤ ((powerOn.trace events).regs.word Cell.txFree).toNat) :
    let e := powerOn.trace events
    let free := (e.regs.word Cell.txFree).toNat
    (SendPromise ν cfg e d ↔ d.length < free) ∧
    (d.length = free → ∀ r : Recorded ν, ∃ e', (e.queue d).command cfg Command.send.code r = (e', r) ∧
      e'.SendOk ∧ e'.sendEnd = none ∧ e'.waiting = []) := by
  intro e free
  have staged : Staged e := staged_trace events
  have live : e.status ≠ .closed := by
    rintro closed
    rcases ready with status | ⟨status, -⟩ <;> exact nomatch closed.symm.trans status
  have tidy := tidy_trace (fun _ => tidy_powerOn) events (fun _ _ _ => id) (.inl live : _ ∨ False)
  have sum : free + distance e.txRead e.txWrite = ringSize :=
    (congrArg (UInt16.toNat · + _) tidy.free).trans (toNat_ofNat_free _ _)
  have full (same : d.length = free) : distance e.txRead e.txWrite + d.length = ringSize := by omega
  refine ⟨⟨fun promise => ?_, fun less => ?_⟩, fun same r => ?_⟩
  · refine Nat.lt_of_le_of_ne fits fun same => ?_
    exact not_promise_of_full staged ready some (full same) cfg promise
  · have room : distance e.txRead e.txWrite + d.length < ringSize := by omega
    exact promise_of_room staged ready some room cfg
  · obtain ⟨e', run, -, rest⟩ := nothing_of_full staged ready (full same) cfg r
    exact ⟨e', run, rest⟩

/-- A datagram socket with a free transmit ring and destination port 80. -/
def datagramSocket : List (Event × Network) :=
  [(.write {} Cell.mode Protocol.udp.code, {}), (.command {} Command.openSocket.code, {}),
    (.write {} (Cell.destPort + 1) 80, {})]

theorem send_promise_whole_ring :
    let e := powerOn.trace datagramSocket
    let d := List.replicate ringSize 7
    e.CanSend ∧ 1 ≤ d.length ∧ d.length = (e.regs.word Cell.txFree).toNat ∧
    ¬ SendPromise Network {} e d ∧
    ∀ r : Recorded Network, ∃ e', (e.queue d).command {} Command.send.code r = (e', r) ∧
      e'.SendOk ∧ e'.sendEnd = none ∧ e'.waiting = [] := by
  intro e d
  have ready : e.CanSend := .inr ⟨by decide +kernel, by decide +kernel, by decide +kernel⟩
  have len : d.length = ringSize := List.length_replicate
  have free : (e.regs.word Cell.txFree).toNat = ringSize := by decide +kernel
  have some : 1 ≤ d.length := len ▸ by decide
  have full : d.length = (e.regs.word Cell.txFree).toNat := len.trans free.symm
  have : Nonempty Network := ⟨{}⟩
  obtain ⟨kept, nothing⟩ := send_promise datagramSocket {} d ready some (Nat.le_of_eq full)
  exact ⟨ready, some, full, fun promise => absurd (kept.mp promise) (full ▸ Nat.lt_irrefl _), nothing full⟩

end EtherChip.Engine

import EtherChip.Proofs.Host.Recorded
import EtherChip.Proofs.Socket.Bank
import EtherChip.Proofs.Socket.Change
import EtherChip.Proofs.Socket.RingCopy

/-!
# Sending on a stream

A SEND on a stream captures the write position; the bytes up to it are `pending` until the host has
taken them. Whatever the host answers, a flush hands over a part from the front and leaves the rest
pending (`flush_hands`), and no other event takes bytes from what is pending or says that the SEND is
complete (`step_hands`), as long as the connection is up, no further SEND is given and the firmware
leaves the pending bytes alone.
-/
namespace EtherChip.Engine

open RingOffset Recorded

/-- Bytes between the transmit pointers. -/
def waiting (e : Engine) : Bytes := e.tx.copyOut e.txRead (distance e.txRead e.txWrite)

/-- Bytes of a SEND that the host has yet to take. -/
def pending (e : Engine) : Bytes :=
  match e.sendEnd with
  | none => []
  | some stop => e.tx.copyOut e.txRead (distance e.txRead stop)

/-- The flag for a completed SEND is up. -/
def SendOk (e : Engine) : Prop := e.regs.get Cell.interrupt &&& Interrupt.sendOk ≠ 0

theorem pending_of_none {e : Engine} (h : e.sendEnd = none) : e.pending = [] := by
  rw [pending, h]

theorem pending_of_some {e : Engine} {stop : RingOffset} (h : e.sendEnd = some stop) :
    e.pending = e.tx.copyOut e.txRead (distance e.txRead stop) := by
  rw [pending, h]

theorem pending_capture (e : Engine) : e.capture.pending = e.waiting := rfl

theorem length_pending {e : Engine} {stop : RingOffset} (h : e.sendEnd = some stop) :
    e.pending.length = distance e.txRead stop := by
  rw [pending_of_some h, Ring.length_copyOut, Nat.min_eq_left (Nat.le_of_lt (distance_lt _ _))]

/-! ## Changes that leave sending alone -/

/-- A change that leaves sending alone. -/
structure Apart (e e' : Engine) : Prop where
  tx : e'.tx = e.tx
  txRead : e'.txRead = e.txRead
  sendEnd : e'.sendEnd = e.sendEnd
  host : e'.host = e.host
  flag : e'.SendOk → e.SendOk

theorem Apart.pending {e e' : Engine} (h : Apart e e') : e'.pending = e.pending := by
  rw [Engine.pending, Engine.pending, h.tx, h.txRead, h.sendEnd]

theorem apart_refl (e : Engine) : Apart e e := ⟨rfl, rfl, rfl, rfl, id⟩

/-- Registers other than the read position and the interrupt cell are free. -/
theorem apart_of_regs (e : Engine) {regs : RegisterBank}
    (txRead : regs.word Cell.txRead = e.regs.word Cell.txRead)
    (interrupt : regs.get Cell.interrupt = e.regs.get Cell.interrupt) :
    Apart e { e with regs := regs } := by
  refine ⟨rfl, ?_, rfl, rfl, fun flag => ?_⟩
  · rw [Engine.txRead, RegisterBank.pointer, txRead]
    rfl
  · rwa [SendOk, interrupt] at flag

theorem apart_setWord (e : Engine) {cell : Nat} (value : UInt16) (h : Cell.txRead + 1 < cell) :
    Apart e { e with regs := e.regs.setWord cell value } := by
  refine apart_of_regs e (RegisterBank.word_setWord_of_apart _ _ (.inr h))
    (RegisterBank.get_setWord_of_ne _ _ ?_ ?_) <;>
  · simp only [Cell.txRead, Cell.interrupt] at *
    omega

theorem apart_showReceived (e : Engine) : Apart e e.showReceived := apart_setWord e _ (by decide)

theorem apart_showFree (e : Engine) : Apart e e.showFree :=
  apart_of_regs e (RegisterBank.word_setWord_of_apart _ _ (by decide))
    (RegisterBank.get_setWord_of_ne _ _ (by decide) (by decide))

theorem Apart.trans {e mid e' : Engine} (h : Apart e mid) (h' : Apart mid e') : Apart e e' :=
  ⟨h'.tx.trans h.tx, h'.txRead.trans h.txRead, h'.sendEnd.trans h.sendEnd, h'.host.trans h.host,
    fun flag => h.flag (h'.flag flag)⟩

/-- Bits of the interrupt flags after one has been raised. -/
theorem interrupt_raise (e : Engine) (flag mask : UInt8) :
    (e.raise flag).regs.get Cell.interrupt &&& mask = (e.regs.get Cell.interrupt &&& mask) ||| (flag &&& mask) := by
  unfold raise
  dsimp only
  rw [RegisterBank.get_set_self _ _ (by decide)]
  exact UInt8.toBitVec_inj.1 BitVec.and_or_distrib_right

/-- Raising the flag for received data is no completed SEND. -/
theorem apart_raise_received (e : Engine) : Apart e (e.raise Interrupt.received) := by
  refine ⟨rfl, ?_, rfl, rfl, fun flag => ?_⟩
  · unfold Engine.txRead raise RegisterBank.pointer
    dsimp only
    rw [RegisterBank.word_set_of_apart _ _ (by decide) (by decide)]
  · have apart : Interrupt.received &&& Interrupt.sendOk = 0 := by decide
    rwa [SendOk, interrupt_raise, apart, UInt8.or_zero] at flag

theorem apart_deliver (e : Engine) (data : Bytes) : Apart e (e.deliver data) := by
  rw [deliver_eq]
  split
  · have copied : Apart e { e with rx := (e.rx.copyIn e.rxWrite data).1
                                   rxWrite := (e.rx.copyIn e.rxWrite data).2 } := ⟨rfl, rfl, rfl, rfl, id⟩
    exact (copied.trans (apart_showReceived _)).trans (apart_raise_received _)
  · exact apart_refl e

/-- A register write moves no pointer of the chip, and clears interrupt flags at most. -/
theorem apart_store (e : Engine) (cell : Nat) (value : UInt8) : Apart e (e.store cell value) := by
  have set (cell : Nat) (value : UInt8) (free : cell ≠ Cell.txRead ∧ cell ≠ Cell.txRead + 1)
      (other : cell ≠ Cell.interrupt) : Apart e { e with regs := e.regs.set cell value } :=
    apart_of_regs e (RegisterBank.word_set_of_apart _ _ free.1 free.2)
      (RegisterBank.get_set_of_ne _ _ other.symm)
  unfold store
  split
  · refine ⟨rfl, ?_, rfl, rfl, fun flag cleared => flag ?_⟩
    · unfold Engine.txRead RegisterBank.pointer
      dsimp only
      rw [RegisterBank.word_set_of_apart _ _ (by decide) (by decide)]
    · dsimp only
      rw [RegisterBank.get_set_self _ _ (by decide), UInt8.and_assoc, UInt8.and_comm (_ ||| _),
        ← UInt8.and_assoc, cleared, UInt8.zero_and]
  rename_i interrupt
  split
  · exact apart_refl e
  rename_i readable
  split
  · exact (set _ _ (by decide) (by decide)).trans (apart_showFree _)
  split
  · exact (set _ _ (by decide) (by decide)).trans (apart_showFree _)
  split
  · exact set _ _ (by decide) (by decide)
  · refine set _ _ ⟨?_, ?_⟩ interrupt <;> rintro rfl <;> exact readable rfl

/-! ## Handing bytes over -/

/-- A step of a socket on a stream: it writes to this stream only; what is taken and what is pending
afterwards is what was pending before; a SEND with nothing left is over; and the flag for a completed
SEND goes up only with nothing left. -/
structure Hands (id : SocketId) (e : Engine) (calls : List Handover) (e' : Engine) : Prop where
  writes : WritesTo id calls
  bytes : takenBytes calls ++ e'.pending = e.pending
  drained : e'.pending = [] → e'.sendEnd = none
  flag : e'.SendOk → e.SendOk ∨ e'.pending = []
  host : e'.host = .stream id

/-- The host refused what is pending. -/
def Refused (id : SocketId) (e : Engine) (calls : List Handover) : Prop :=
  calls.getLast? = some (.write id e.pending (.error .eagain))

theorem Apart.hands {e e' : Engine} {id : SocketId} (h : Apart e e') (host : e.host = .stream id)
    (drained : e.pending = [] → e.sendEnd = none) : Hands id e [] e' where
  writes := writesTo_nil id
  bytes := h.pending
  drained none := h.sendEnd.trans (drained (h.pending ▸ none))
  flag up := .inl (h.flag up)
  host := h.host.trans host

@[simp] theorem txRead_showSent (e : Engine) (position : RingOffset) : (e.showSent position).txRead = position := by
  rw [showSent, (apart_showFree _).txRead]
  exact RegisterBank.pointer_of_word (RegisterBank.word_setWord_self _ _ (by decide))

theorem pending_showSent (e : Engine) {stop : RingOffset} {n : Nat} (h : e.sendEnd = some stop)
    (le : n ≤ distance e.txRead stop) :
    (e.showSent (e.txRead.advance n)).pending = e.pending.drop n := by
  have same : (e.showSent (e.txRead.advance n)).sendEnd = some stop := h
  rw [pending_of_some same, txRead_showSent, distance_advance_left le, pending_of_some h,
    Ring.drop_copyOut _ _ le (Nat.le_of_lt (distance_lt _ _))]
  rfl

theorem sendOk_showSent {e : Engine} {position : RingOffset} (h : (e.showSent position).SendOk) :
    e.SendOk := by
  have flag := (apart_showFree _).flag h
  rwa [SendOk, RegisterBank.get_setWord_of_ne _ _ (by decide) (by decide)] at flag

variable {ν : Type} [NetHost ν]

theorem silent_release (e : Engine) : Silent (e.release : StateM (Recorded ν) Engine) :=
  .bind (silent_close _) fun _ => .pure _

theorem flushStream_of_none {e : Engine} (h : e.sendEnd = none) :
    (e.flushStream : StateM ν Engine) = pure e := by
  rw [flushStream, h]

theorem flushStream_of_some {e : Engine} {stop : RingOffset} (h : e.sendEnd = some stop) :
    (e.flushStream : StateM ν Engine) =
      if distance e.txRead stop = 0 then pure (completeSend { e with sendEnd := none } stop)
      else do
        match ← e.host.sendStream (e.tx.copyOut e.txRead (distance e.txRead stop)) with
        | .error _ => e.release
        | .ok sent =>
          if sent < distance e.txRead stop then
            if sent = 0 then return e
            return e.showSent (e.txRead.advance sent)
          return completeSend { e with sendEnd := none } stop := by
  unfold flushStream
  split
  · rename_i none
    exact nomatch none.symm.trans h
  · rename_i stop' sending
    obtain rfl : stop' = stop := Option.some.inj (sending.symm.trans h)
    rfl

theorem flushStream_of_empty {e : Engine} {stop : RingOffset} (h : e.sendEnd = some stop)
    (empty : e.txRead = stop) :
    (e.flushStream : StateM ν Engine) = pure (completeSend { e with sendEnd := none } stop) := by
  rw [flushStream_of_some h, if_pos (distance_eq_zero.mpr empty)]

/-- What a flush leaves, if `taken` has been taken of the pending bytes and `rest` is left: a socket
whose connection is lost, one whose SEND is over, or one with a SEND that the host refused to finish. -/
inductive Flushed (e : Engine) (stop : RingOffset) (taken rest : Bytes) (refused : Prop) : Engine → Prop
  | lost : Flushed e stop taken rest refused e.closed
  | drained : rest = [] → Flushed e stop taken rest refused (completeSend { e with sendEnd := none } stop)
  | stuck : rest ≠ [] → refused → taken = [] → Flushed e stop taken rest refused e
  | part : rest ≠ [] → refused → Flushed e stop taken rest refused (e.showSent (e.txRead.advance taken.length))

theorem flushStream_flushed {e e' : Engine} {r r' : Recorded ν} {id : SocketId} (host : e.host = .stream id)
    {stop : RingOffset} (sending : e.sendEnd = some stop) (run : e.flushStream r = (e', r')) :
    ∃ calls rest, r'.handed = r.handed ++ calls ∧ WritesTo id calls ∧
      takenBytes calls ++ rest = e.pending ∧
      Flushed e stop (takenBytes calls) rest (calls.getLast? = some (.write id rest (.error .eagain))) e' := by
  have len : distance e.txRead stop = e.pending.length := (length_pending sending).symm
  have data : e.tx.copyOut e.txRead (distance e.txRead stop) = e.pending := (pending_of_some sending).symm
  rw [flushStream_of_some sending, data, len] at run
  split at run
  · rename_i nothing
    obtain ⟨rfl, rfl⟩ := pure_run run
    exact ⟨[], [], (List.append_nil _).symm, writesTo_nil id, (List.eq_nil_of_length_eq_zero nothing).symm,
      .drained rfl⟩
  have asked : (e.host.sendStream e.pending : StateM (Recorded ν) _) r =
      HostSocket.writeAll id e.pending 0 r := by
    rw [host]
    rfl
  simp only [bind, StateT.bind, asked] at run
  obtain ⟨calls, rest, handed, writes, whole, counted⟩ := writeAll_handed id e.pending 0 r
  generalize HostSocket.writeAll id e.pending 0 r = outcome at run handed counted
  obtain ⟨answer, r₁⟩ := outcome
  have total := congrArg List.length whole
  rw [List.length_append] at total
  cases answer with
  | error _ =>
    have lost : e' = e.closed := (congrArg Prod.fst run).symm
    have record : r'.handed = r₁.handed := by
      rw [← show _ = r' from congrArg Prod.snd run]
      exact silent_release e r₁
    exact ⟨calls, rest, record.trans handed, writes, whole, lost ▸ .lost⟩
  | ok n =>
    obtain ⟨sent, reason⟩ := counted n rfl
    rw [Nat.zero_add] at sent
    subst sent
    dsimp only at run
    split at run
    · rename_i part
      have more : rest ≠ [] := by
        rintro rfl
        rw [List.length_nil] at total
        omega
      have refused := reason.resolve_left more
      split at run
      · rename_i zero
        obtain ⟨rfl, rfl⟩ := pure_run run
        exact ⟨calls, rest, handed, writes, whole, .stuck more refused (List.eq_nil_of_length_eq_zero zero)⟩
      · obtain ⟨rfl, rfl⟩ := pure_run run
        exact ⟨calls, rest, handed, writes, whole, .part more refused⟩
    · obtain ⟨rfl, rfl⟩ := pure_run run
      exact ⟨calls, rest, handed, writes, whole, .drained (List.eq_nil_of_length_eq_zero (by omega))⟩

/-- **A flush hands over a part of what is pending, from the front,** and leaves something only
because the host refused it, unless the connection is lost. -/
theorem flush_hands {e e' : Engine} {r r' : Recorded ν} {id : SocketId} (host : e.host = .stream id)
    {stop : RingOffset} (sending : e.sendEnd = some stop) (run : e.flushStream r = (e', r'))
    (up : e'.status = .established) :
    ∃ calls, r'.handed = r.handed ++ calls ∧ Hands id e calls e' ∧
      (e'.pending = [] ∨ Refused id e' calls) := by
  obtain ⟨calls, rest, handed, writes, whole, flushed⟩ := flushStream_flushed host sending run
  refine ⟨calls, handed, ?_⟩
  cases flushed with
  | lost => cases up
  | drained nothing =>
    have finished : (completeSend { e with sendEnd := none } stop).pending = [] := pending_of_none rfl
    refine ⟨⟨writes, ?_, fun _ => rfl, fun _ => .inr finished, (host_completeSend _ _).trans host⟩, .inl finished⟩
    rw [finished, ← whole, nothing]
  | stuck more refused none =>
    rw [none, List.nil_append] at whole
    subst whole
    exact ⟨⟨writes, by rw [none, List.nil_append], fun none => absurd none more, .inl, host⟩, .inr refused⟩
  | part more refused =>
    have le : (takenBytes calls).length ≤ distance e.txRead stop := by
      rw [← length_pending sending, ← whole, List.length_append]
      omega
    have left : (e.showSent (e.txRead.advance (takenBytes calls).length)).pending = rest := by
      rw [pending_showSent e sending le, ← whole, List.drop_left]
    refine ⟨⟨writes, by rw [left, whole], fun none => absurd (left.symm.trans none) more,
      fun flag => .inl (sendOk_showSent flag), (host_showSent _ _).trans host⟩, .inr ?_⟩
    rw [Refused, left]
    exact refused

/-! ## Every other event -/

/-- The firmware does not store into the pending bytes. -/
def Spares (e : Engine) : Event → Prop
  | .storeTx o _ => ∀ stop ∈ e.sendEnd, distance e.txRead stop ≤ distance e.txRead o
  | _ => True

theorem Hands.apart {e mid e' : Engine} {id : SocketId} {calls : List Handover} (h : Hands id e calls mid)
    (apart : Apart mid e') : Hands id e calls e' where
  writes := h.writes
  bytes := apart.pending ▸ h.bytes
  drained none := apart.sendEnd.trans (h.drained (apart.pending ▸ none))
  flag up := (h.flag (apart.flag up)).imp_right apart.pending.trans
  host := apart.host.trans h.host

/-- What a command other than SEND can do to a stream. -/
theorem command_cases {e e' : Engine} {r r' : Recorded ν} {cfg : NetConfig} {code : UInt8}
    (status : e.status = .established) (noSend : Command.ofCode? code ≠ some .send)
    (run : e.command cfg code r = (e', r')) :
    (e' = e ∨ e' = e.closed ∨ e' = e.showReceived) ∧ r'.handed = r.handed := by
  rw [Engine.command, status] at run
  generalize Command.ofCode? code = command at noSend run
  rcases command with _ | command
  · obtain ⟨rfl, rfl⟩ := pure_run run
    exact ⟨.inl rfl, rfl⟩
  cases command with
  | openSocket | listen | connect =>
    obtain ⟨rfl, rfl⟩ := pure_run run
    exact ⟨.inl rfl, rfl⟩
  | disconnect | close =>
    obtain ⟨lost, record⟩ : e.closed = e' ∧ _ = r' := Prod.mk.inj run
    exact ⟨.inr (.inl lost.symm), record ▸ silent_release e r⟩
  | send => exact absurd rfl noSend
  | receive =>
    obtain ⟨rfl, rfl⟩ := pure_run run
    exact ⟨.inr (.inr rfl), rfl⟩

/-- What looking for received bytes can do to a stream. -/
theorem pollStream_cases {e e' : Engine} {r r' : Recorded ν} {room : Nat}
    (run : e.pollStream room r = (e', r')) :
    (e' = e ∨ e' = e.closed ∨ ∃ data, e' = e.deliver data) ∧ r'.handed = r.handed := by
  have silent := silent_receiveStream (ν := ν) e.host room r
  rw [pollStream, bind_run] at run
  generalize (e.host.receiveStream room : StateM (Recorded ν) StreamEvent) r = found at run silent
  obtain ⟨found, r₁⟩ := found
  cases found with
  | idle =>
    obtain ⟨rfl, rfl⟩ := pure_run run
    exact ⟨.inl rfl, silent⟩
  | data bytes =>
    obtain ⟨rfl, rfl⟩ := pure_run run
    exact ⟨.inr (.inr ⟨bytes, rfl⟩), silent⟩
  | closed =>
    obtain ⟨lost, record⟩ : e.closed = e' ∧ _ = r' := Prod.mk.inj run
    exact ⟨.inr (.inl lost.symm), (record ▸ silent_release e r₁).trans silent⟩

/-- A command other than SEND concerns no bytes, unless it closes the connection. -/
theorem command_apart {e e' : Engine} {r r' : Recorded ν} {cfg : NetConfig} {code : UInt8}
    (status : e.status = .established) (noSend : Command.ofCode? code ≠ some .send)
    (run : e.command cfg code r = (e', r')) (up : e'.status = .established) :
    Apart e e' ∧ r'.handed = r.handed := by
  obtain ⟨rfl | rfl | rfl, silent⟩ := command_cases status noSend run
  · exact ⟨apart_refl _, silent⟩
  · cases up
  · exact ⟨apart_showReceived e, silent⟩

/-- What a poll receives concerns no bytes that are sent, unless the connection is lost. -/
theorem pollStream_apart {e e' : Engine} {r r' : Recorded ν} {room : Nat}
    (run : e.pollStream room r = (e', r')) (up : e'.status = .established) :
    Apart e e' ∧ e.status = .established ∧ r'.handed = r.handed := by
  obtain ⟨rfl | rfl | ⟨data, rfl⟩, silent⟩ := pollStream_cases run
  · exact ⟨apart_refl _, up, silent⟩
  · cases up
  · exact ⟨apart_deliver e data, (status_deliver e data).symm.trans up, silent⟩

theorem poll_hands {e e' : Engine} {r r' : Recorded ν} {id : SocketId} (host : e.host = .stream id)
    (status : e.status = .established) (drained : e.pending = [] → e.sendEnd = none)
    (run : e.poll r = (e', r')) (up : e'.status = .established) :
    ∃ calls, r'.handed = r.handed ++ calls ∧ Hands id e calls e' ∧
      (e'.pending = [] ∨ Refused id e' calls) := by
  rw [poll, status] at run
  simp only [bind, StateT.bind] at run
  cases sending : e.sendEnd with
  | none =>
    rw [flushStream_of_none sending] at run
    obtain ⟨apart, -, silent⟩ := pollStream_apart run up
    exact ⟨[], silent.trans (List.append_nil _).symm, apart.hands host drained,
      .inl (apart.pending.trans (pending_of_none sending))⟩
  | some stop =>
    generalize flushed : (e.flushStream : StateM (Recorded ν) Engine) r = mid at run
    obtain ⟨mid, r₁⟩ := mid
    obtain ⟨apart, still, silent⟩ := pollStream_apart run up
    obtain ⟨calls, handed, hands, refused⟩ := flush_hands host sending flushed still
    refine ⟨calls, silent.trans handed, hands.apart apart, ?_⟩
    rw [Refused, apart.pending]
    exact refused

/-- **Step.** While the connection is up, no event but SEND changes what is pending otherwise than by
handing over a part of it; a poll leaves something only because the host refused it. -/
theorem step_hands {e e' : Engine} {r r' : Recorded ν} {id : SocketId} {event : Event}
    (host : e.host = .stream id) (status : e.status = .established)
    (drained : e.pending = [] → e.sendEnd = none) (noSend : event.command? ≠ some .send)
    (spares : e.Spares event) (run : e.step event r = (e', r')) (up : e'.status = .established) :
    ∃ calls, r'.handed = r.handed ++ calls ∧ Hands id e calls e' ∧
      (event = .poll → e'.pending = [] ∨ Refused id e' calls) := by
  have alone (same : Apart e e' ∧ r'.handed = r.handed) (other : event ≠ .poll) :
      ∃ calls, r'.handed = r.handed ++ calls ∧ Hands id e calls e' ∧
        (event = .poll → e'.pending = [] ∨ Refused id e' calls) :=
    ⟨[], same.2.trans (List.append_nil _).symm, same.1.hands host drained, fun poll => absurd poll other⟩
  cases event with
  | write cfg cell code =>
    refine alone ?_ nofun
    dsimp only [step, writeRegister, Event.command?] at run noSend
    split at noSend
    · rename_i command
      rw [if_pos command] at run
      exact command_apart status noSend run up
    · rename_i other
      rw [if_neg other] at run
      obtain ⟨rfl, rfl⟩ := pure_run run
      exact ⟨apart_store e cell code, rfl⟩
  | command cfg code => exact alone (command_apart status noSend run up) nofun
  | storeTx o value =>
    obtain ⟨rfl, rfl⟩ := pure_run run
    have same : (e.storeTx o value).pending = e.pending := by
      cases sending : e.sendEnd with
      | none => rw [pending_of_none sending, pending_of_none (e := e.storeTx o value) sending]
      | some stop =>
        rw [pending_of_some sending, pending_of_some (e := e.storeTx o value) sending]
        refine Ring.copyOut_congr fun p before => Ring.get_set_of_ne _ _ ?_
        rintro rfl
        exact absurd (spares stop sending) (Nat.not_le.mpr before)
    exact ⟨[], (List.append_nil _).symm, ⟨writesTo_nil id, same, fun none => drained (same ▸ none), .inl, host⟩, nofun⟩
  | storeRx o value =>
    obtain ⟨rfl, rfl⟩ := pure_run run
    exact alone ⟨⟨rfl, rfl, rfl, rfl, fun up => up⟩, rfl⟩ nofun
  | deliver data =>
    obtain ⟨rfl, rfl⟩ := pure_run run
    exact alone ⟨apart_deliver e data, rfl⟩ nofun
  | poll =>
    obtain ⟨calls, handed, hands, refused⟩ := poll_hands host status drained run up
    exact ⟨calls, handed, hands, fun _ => refused⟩
  | reset =>
    obtain rfl : powerOn = e' := congrArg Prod.fst run
    exact nomatch up
  | load state =>
    obtain rfl : ofState state = e' := congrArg Prod.fst run
    exact nomatch up

end EtherChip.Engine

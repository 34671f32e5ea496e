import EtherChip.Proofs.Socket.Promise

/-!
# Bytes on a stream

While a connection is up, the chip's read position of the transmit ring tells what the host has taken:
in every step the host takes the bytes that the position passes over and no others, whatever it answers
to a write and whatever the firmware does in between. A write that fails for good is the exception: it
may come after a part has been taken, and then the position stays and the connection is lost.

`step_sends` says what one step can do. SEND captures the firmware's write position, up to which the
chip sends from then on (`target`); `Moves` is a step that hands over bytes on the way there, `Rests`
one that hands over none, `Cut` one whose write fails. From them follow the account of a whole
connection and what becomes of its latest SEND (`stream_integrity`).
-/
namespace EtherChip.Engine

open RingOffset Recorded

/-! ## What a step can do -/

/-- Bytes that the chip's read position passes over on the way from one state to the next. -/
def passed (e e' : Engine) : Bytes := e.tx.copyOut e.txRead (distance e.txRead e'.txRead)

/-- The position up to which a step sends: SEND captures the firmware's write position. -/
def target (e : Engine) (event : Event) : Option RingOffset :=
  if event.command? = some .send then some e.txWrite else e.sendEnd

/-- Nothing happens to what is sent. -/
structure Rests (e e' : Engine) : Prop where
  txRead : e'.txRead = e.txRead
  flag : e'.SendOk → e.SendOk
  up : e'.status = .established → e.status = .established ∧ e'.sendEnd = e.sendEnd ∧ e'.host = e.host

/-- The read position moves towards `stop` over the bytes that are taken; arriving there completes the
SEND, and nothing else does. -/
structure Moves (e : Engine) (stop : RingOffset) (taken : Bytes) (e' : Engine) : Prop where
  passed : taken = e.passed e'
  ahead : distance e.txRead e'.txRead + distance e'.txRead stop = distance e.txRead stop
  arrived : e'.txRead = stop → e'.SendOk
  flag : e'.SendOk → e.SendOk ∨ e'.txRead = stop
  up : e'.status = .established →
    e'.sendEnd = (if e'.txRead = stop then none else some stop) ∧ e'.host = e.host

/-- A write fails for good when a part of the bytes up to `stop` has been taken. -/
structure Cut (e : Engine) (stop : RingOffset) (taken : Bytes) (e' : Engine) : Prop where
  short : e.txRead ≠ stop
  front : taken <+: e.tx.copyOut e.txRead (distance e.txRead stop)
  status : e'.status = .closed
  txRead : e'.txRead = e.txRead
  interrupt : e'.regs.get Cell.interrupt = e.regs.get Cell.interrupt

/-- What an event does to what is sent while the connection is up. -/
inductive Sends (e : Engine) (event : Event) (calls : List Handover) (e' : Engine) : Prop
  | rests : event.command? ≠ some .send → calls = [] → Rests e e' → Sends e event calls e'
  | moves (stop : RingOffset) : e.target event = some stop → (∀ call ∈ calls, ¬ call.Failed) →
      Moves e stop (takenBytes calls) e' → Sends e event calls e'
  | cut (stop : RingOffset) : e.target event = some stop → (∃ call ∈ calls, call.Failed) →
      Cut e stop (takenBytes calls) e' → Sends e event calls e'

theorem Cut.lost {e e' : Engine} {stop : RingOffset} {taken : Bytes} (h : Cut e stop taken e') :
    e'.status ≠ .established := by
  rw [h.status]
  decide

theorem passed_of_same {e e' : Engine} (h : e'.txRead = e.txRead) : e.passed e' = [] := by
  rw [passed, h, distance_self, Ring.copyOut_zero]

theorem Apart.rests {e e' : Engine} (h : Apart e e') (status : e'.status = e.status) : Rests e e' :=
  ⟨h.txRead, h.flag, fun up => ⟨status ▸ up, h.sendEnd, h.host⟩⟩

theorem interrupt_closed (e : Engine) : e.closed.regs.get Cell.interrupt = e.regs.get Cell.interrupt :=
  RegisterBank.get_set_of_ne _ _ (by decide)

theorem txRead_closed (e : Engine) : e.closed.txRead = e.txRead := by
  have same : e.closed.regs.word Cell.txRead = e.regs.word Cell.txRead :=
    RegisterBank.word_set_of_apart _ _ (by decide) (by decide)
  rw [Engine.txRead, RegisterBank.pointer, same]
  rfl

theorem sendOk_closed (e : Engine) : e.closed.SendOk ↔ e.SendOk := by
  rw [SendOk, interrupt_closed, SendOk]

/-- Losing the connection concerns no bytes. -/
theorem rests_closed (e : Engine) : Rests e e.closed :=
  ⟨txRead_closed e, (sendOk_closed e).mp, nofun⟩

/-- What follows a hand-over in the same step, keeps it. -/
theorem Moves.rests {e mid e' : Engine} {stop : RingOffset} {taken : Bytes} (h : Moves e stop taken mid)
    (rest : Rests mid e') (keeps : mid.SendOk → e'.SendOk) : Moves e stop taken e' where
  passed := by rw [h.passed, Engine.passed, Engine.passed, rest.txRead]
  ahead := by rw [rest.txRead, h.ahead]
  arrived arrival := keeps (h.arrived (rest.txRead.symm.trans arrival))
  flag up := (h.flag (rest.flag up)).imp_right rest.txRead.trans
  up up := by
    obtain ⟨still, sendEnd, host⟩ := rest.up up
    obtain ⟨sendEnd', host'⟩ := h.up still
    rw [rest.txRead]
    exact ⟨sendEnd.trans sendEnd', host.trans host'⟩

/-! ## A flush -/

/-- The read position moves `n` bytes, not all the way. -/
theorem moves_part {e e' : Engine} {stop : RingOffset} {n : Nat} (part : n < distance e.txRead stop)
    (txRead : e'.txRead = e.txRead.advance n) (flag : e'.SendOk → e.SendOk) (sendEnd : e'.sendEnd = some stop)
    (host : e'.host = e.host) : Moves e stop (e.tx.copyOut e.txRead n) e' := by
  have turn : n < ringSize := Nat.lt_trans part (distance_lt _ _)
  have moved : distance e.txRead e'.txRead = n := by rw [txRead, distance_advance, Nat.mod_eq_of_lt turn]
  have left : distance e'.txRead stop = distance e.txRead stop - n := by
    rw [txRead, distance_advance_left (Nat.le_of_lt part)]
  have short : e'.txRead ≠ stop := by
    rw [Ne, ← distance_eq_zero, left]
    omega
  exact ⟨by rw [Engine.passed, moved], by rw [moved, left]; omega, fun arrival => absurd arrival short,
    fun up => .inl (flag up), fun _ => ⟨by rw [if_neg short, sendEnd], host⟩⟩

/-- The read position moves all the way. -/
theorem moves_whole {e e' : Engine} {stop : RingOffset} (txRead : e'.txRead = stop) (flag : e'.SendOk)
    (sendEnd : e'.sendEnd = none) (host : e'.host = e.host) :
    Moves e stop (e.tx.copyOut e.txRead (distance e.txRead stop)) e' :=
  ⟨by rw [Engine.passed, txRead], by rw [txRead, distance_self, Nat.add_zero], fun _ => flag,
    fun _ => .inr txRead, fun _ => ⟨by rw [if_pos txRead, sendEnd], host⟩⟩

variable {ν : Type} [NetHost ν]

/-- A flush loses the connection exactly if a write fails for good. -/
theorem flushStream_failed {e e' : Engine} {r r' : Recorded ν} {id : SocketId} (host : e.host = .stream id)
    (status : e.status = .established) {stop : RingOffset} (sending : e.sendEnd = some stop)
    (run : e.flushStream r = (e', r')) {calls : List Handover} (handed : r'.handed = r.handed ++ calls) :
    (∃ call ∈ calls, call.Failed) ↔ e'.status = .closed := by
  have up {same : Engine} (h : same.status = e.status) : ¬ same.status = .closed := by
    rw [h, status]
    decide
  rw [flushStream_of_some sending] at run
  split at run
  · obtain ⟨rfl, rfl⟩ := pure_run run
    obtain rfl : calls = [] := List.self_eq_append_right.mp handed
    exact ⟨nofun, fun closed => absurd closed (up (status_completeSend _ _))⟩
  generalize e.tx.copyOut e.txRead (distance e.txRead stop) = data at run
  have asked : (e.host.sendStream data : StateM (Recorded ν) _) r = HostSocket.writeAll id data 0 r := by
    rw [host]
    rfl
  simp only [bind, StateT.bind, asked] at run
  have failed (later : List Handover) (same : (HostSocket.writeAll id data 0 r).2.handed = r.handed ++ later) :=
    writeAll_failed id data 0 r same
  generalize HostSocket.writeAll id data 0 r = outcome at run failed
  obtain ⟨answer, r₁⟩ := outcome
  cases answer with
  | error e =>
    obtain ⟨lost, record⟩ := Prod.mk.inj run
    have record : r'.handed = r₁.handed := record ▸ silent_release _ r₁
    rw [failed calls (record ▸ handed), ← lost]
    exact ⟨fun _ => rfl, fun _ => ⟨_, rfl⟩⟩
  | ok n =>
    have kept : e'.status = e.status ∧ r' = r₁ := by
      dsimp only at run
      split at run
      · split at run
        · obtain ⟨rfl, rfl⟩ := pure_run run
          exact ⟨rfl, rfl⟩
        · obtain ⟨rfl, rfl⟩ := pure_run run
          exact ⟨status_showSent _ _, rfl⟩
      · obtain ⟨rfl, rfl⟩ := pure_run run
        exact ⟨status_completeSend _ _, rfl⟩
    rw [failed calls (kept.2 ▸ handed)]
    exact ⟨nofun, fun closed => absurd closed (up kept.1)⟩

/-- **A flush moves the read position over what the host takes, or a write fails for good.** -/
theorem flush_moves {e e' : Engine} {r r' : Recorded ν} {id : SocketId} (host : e.host = .stream id)
    (status : e.status = .established) {stop : RingOffset} (sending : e.sendEnd = some stop)
    (run : e.flushStream r = (e', r')) :
    ∃ calls, r'.handed = r.handed ++ calls ∧ WritesTo id calls ∧
      ((∀ call ∈ calls, ¬ call.Failed) ∧ e'.status = .established ∧ Moves e stop (takenBytes calls) e' ∨
        (∃ call ∈ calls, call.Failed) ∧ e' = e.closed ∧ Cut e stop (takenBytes calls) e') := by
  obtain ⟨calls, rest, handed, writes, whole, flushed⟩ := flushStream_flushed host sending run
  have failed := flushStream_failed host status sending run handed
  rw [pending_of_some sending] at whole
  obtain ⟨total, taken⟩ := Ring.front_copyOut (Nat.le_of_lt (distance_lt _ _)) whole
  have more (left : rest ≠ []) : (takenBytes calls).length < distance e.txRead stop := by
    have := List.length_pos_iff.mpr left
    omega
  have works (up : e'.status = .established) : ∀ call ∈ calls, ¬ call.Failed := fun call mem broken =>
    nomatch up.symm.trans (failed.mp ⟨call, mem, broken⟩)
  refine ⟨calls, handed, writes, ?_⟩
  cases flushed with
  | lost =>
    refine .inr ⟨failed.mpr rfl, rfl, fun same => ?_, ⟨rest, whole⟩, rfl, txRead_closed e, interrupt_closed e⟩
    rw [flushStream_of_empty sending same] at run
    obtain ⟨kept, -⟩ := pure_run run
    have lost := congrArg Engine.status kept
    rw [status_completeSend] at lost
    exact nomatch status.symm.trans lost
  | drained nothing =>
    have up := (status_completeSend { e with sendEnd := none } stop).trans status
    rw [nothing, List.append_nil] at whole
    rw [whole]
    exact .inl ⟨works up, up, moves_whole (txRead_completeSend _ _) (sendOk_completeSend _ _)
      (sendEnd_completeSend _ _) (host_completeSend _ _)⟩
  | stuck left refused none =>
    have part := more left
    rw [taken]
    rw [none] at part ⊢
    exact .inl ⟨works status, status, moves_part part (advance_zero _).symm (fun flag => flag) sending rfl⟩
  | part left refused =>
    have up := (status_showSent e (e.txRead.advance (takenBytes calls).length)).trans status
    have moves := moves_part (more left) (txRead_showSent e _) sendOk_showSent sending (host_showSent e _)
    rw [← taken] at moves
    exact .inl ⟨works up, up, moves⟩

/-! ## Every event -/

theorem sendOk_deliver {e : Engine} (data : Bytes) (h : e.SendOk) : (e.deliver data).SendOk := by
  rw [deliver_eq]
  split
  · have same : (showReceived { e with rx := (e.rx.copyIn e.rxWrite data).1
                                       rxWrite := (e.rx.copyIn e.rxWrite data).2 }).regs.get Cell.interrupt =
        e.regs.get Cell.interrupt := RegisterBank.get_setWord_of_ne _ _ (by decide) (by decide)
    rw [appended, SendOk, interrupt_raise, same, Ne, UInt8.or_eq_zero_iff]
    exact fun none => h none.1
  · exact h

/-- What a poll receives concerns no bytes that are sent. -/
theorem pollStream_rests {e e' : Engine} {r r' : Recorded ν} {room : Nat}
    (run : e.pollStream room r = (e', r')) :
    Rests e e' ∧ (e.SendOk → e'.SendOk) ∧ r'.handed = r.handed := by
  obtain ⟨rfl | rfl | ⟨data, rfl⟩, silent⟩ := pollStream_cases run
  · exact ⟨(apart_refl _).rests rfl, id, silent⟩
  · exact ⟨rests_closed e, (sendOk_closed e).mpr, silent⟩
  · exact ⟨(apart_deliver e data).rests (status_deliver e data), sendOk_deliver data, silent⟩

/-- A command other than SEND concerns no bytes that are sent. -/
theorem command_rests {e e' : Engine} {r r' : Recorded ν} {cfg : NetConfig} {code : UInt8}
    (status : e.status = .established) (noSend : Command.ofCode? code ≠ some .send)
    (run : e.command cfg code r = (e', r')) : Rests e e' ∧ r'.handed = r.handed := by
  obtain ⟨rfl | rfl | rfl, silent⟩ := command_cases status noSend run
  · exact ⟨(apart_refl _).rests rfl, silent⟩
  · exact ⟨rests_closed e, silent⟩
  · exact ⟨(apart_showReceived e).rests rfl, silent⟩

theorem target_send {e : Engine} {event : Event} (send : event.command? = some .send) :
    e.target event = some e.txWrite := if_pos send

theorem target_other {e : Engine} {event : Event} (noSend : event.command? ≠ some .send) :
    e.target event = e.sendEnd := if_neg noSend

/-- SEND sends up to the write position. -/
theorem send_sends {e e' : Engine} {r r' : Recorded ν} {cfg : NetConfig} {code : UInt8} {id : SocketId}
    {event : Event} (host : e.host = .stream id) (status : e.status = .established)
    (send : Command.ofCode? code = some .send) (gives : event.command? = Command.ofCode? code)
    (run : e.command cfg code r = (e', r')) :
    ∃ calls, r'.handed = r.handed ++ calls ∧ WritesTo id calls ∧ Sends e event calls e' := by
  have flush : e.capture.flushStream r = (e', r') := by
    rw [← send_established e cfg status, ← run, command, status, send]
  have target := target_send (e := e) (gives.trans send)
  obtain ⟨calls, handed, writes, ⟨works, -, moves⟩ | ⟨failed, -, cut⟩⟩ :=
    flush_moves (e := e.capture) host status rfl flush
  · exact ⟨calls, handed, writes, .moves e.txWrite target works
      ⟨moves.passed, moves.ahead, moves.arrived, moves.flag, moves.up⟩⟩
  · exact ⟨calls, handed, writes, .cut e.txWrite target failed
      ⟨cut.short, cut.front, cut.status, cut.txRead, cut.interrupt⟩⟩

/-- A poll sends up to the position that the last SEND has captured. -/
theorem poll_sends {e e' : Engine} {r r' : Recorded ν} {id : SocketId} (host : e.host = .stream id)
    (status : e.status = .established) (run : e.poll r = (e', r')) :
    ∃ calls, r'.handed = r.handed ++ calls ∧ WritesTo id calls ∧ Sends e .poll calls e' := by
  rw [poll, status] at run
  simp only [bind, StateT.bind] at run
  have noSend : Event.poll.command? ≠ some .send := by decide
  cases sending : e.sendEnd with
  | none =>
    rw [flushStream_of_none sending] at run
    obtain ⟨rests, -, silent⟩ := pollStream_rests run
    exact ⟨[], silent.trans (List.append_nil _).symm, writesTo_nil id, .rests noSend rfl rests⟩
  | some stop =>
    generalize flushed : (e.flushStream : StateM (Recorded ν) Engine) r = mid at run
    obtain ⟨mid, r₁⟩ := mid
    obtain ⟨calls, handed, writes, outcome⟩ := flush_moves host status sending flushed
    obtain ⟨rests, keeps, silent⟩ := pollStream_rests run
    refine ⟨calls, silent.trans handed, writes, ?_⟩
    have target : e.target .poll = some stop := (target_other noSend).trans sending
    rcases outcome with ⟨works, -, moves⟩ | ⟨failed, rfl, cut⟩
    · exact .moves stop target works (moves.rests rests keeps)
    · -- no host socket is left, so nothing is received
      obtain ⟨rfl, -⟩ : e.closed = e' ∧ r₁ = r' := pure_run run
      exact .cut stop target failed cut

/-- **Step.** What an event does to what is sent while the connection is up. -/
theorem step_sends {e e' : Engine} {r r' : Recorded ν} {id : SocketId} {event : Event}
    (host : e.host = .stream id) (status : e.status = .established) (noReset : event.isReset = false)
    (noLoad : event.isLoad = false) (run : e.step event r = (e', r')) :
    ∃ calls, r'.handed = r.handed ++ calls ∧ WritesTo id calls ∧ Sends e event calls e' := by
  have alone (noSend : event.command? ≠ some .send) (same : Rests e e' ∧ r'.handed = r.handed) :
      ∃ calls, r'.handed = r.handed ++ calls ∧ WritesTo id calls ∧ Sends e event calls e' :=
    ⟨[], same.2.trans (List.append_nil _).symm, writesTo_nil id, .rests noSend rfl same.1⟩
  cases event with
  | write cfg cell code =>
    dsimp only [step, writeRegister] at run
    split at run
    · rename_i command
      have gives : (Event.write cfg cell code).command? = Command.ofCode? code := if_pos command
      by_cases send : Command.ofCode? code = some .send
      · exact send_sends host status send gives run
      · exact alone (gives ▸ send) (command_rests status send run)
    · rename_i other
      have gives : (Event.write cfg cell code).command? = none := if_neg other
      obtain ⟨rfl, rfl⟩ := pure_run run
      exact alone (gives ▸ nofun) ⟨(apart_store e cell code).rests (status_store e cell code), rfl⟩
  | command cfg code =>
    by_cases send : Command.ofCode? code = some .send
    · exact send_sends host status send rfl run
    · exact alone send (command_rests status send run)
  | storeTx o value =>
    obtain ⟨rfl, rfl⟩ := pure_run run
    exact alone nofun ⟨⟨rfl, fun flag => flag, fun up => ⟨up, rfl, rfl⟩⟩, rfl⟩
  | storeRx o value =>
    obtain ⟨rfl, rfl⟩ := pure_run run
    exact alone nofun ⟨⟨rfl, fun flag => flag, fun up => ⟨up, rfl, rfl⟩⟩, rfl⟩
  | deliver data =>
    obtain ⟨rfl, rfl⟩ := pure_run run
    exact alone nofun ⟨(apart_deliver e data).rests (status_deliver e data), rfl⟩
  | poll => exact poll_sends host status run
  | reset => cases noReset
  | load => cases noLoad

theorem Sends.host {e e' : Engine} {event : Event} {calls : List Handover} (h : Sends e event calls e')
    (up : e'.status = .established) : e'.host = e.host := by
  cases h with
  | rests _ _ rests => exact (rests.up up).2.2
  | moves _ _ _ moves => exact (moves.up up).2
  | cut _ _ _ cut => exact absurd up cut.lost

/-- What a step of a connection hands to the host: the bytes that the read position passes over, unless
a write fails for good. Then a part of the bytes up to the captured position may have been taken, the
connection is lost, and neither the position nor the interrupt flags have changed. -/
structure Account (e : Engine) (event : Event) (calls : List Handover) (e' : Engine) : Prop where
  passed : e'.status = .established ∨ (∀ call ∈ calls, ¬ call.Failed) → takenBytes calls = e.passed e'
  failed : (∃ call ∈ calls, call.Failed) → e'.status = .closed ∧ e'.txRead = e.txRead ∧
    e'.regs.get Cell.interrupt = e.regs.get Cell.interrupt ∧
    ∃ stop, e.target event = some stop ∧
      takenBytes calls <+: e.tx.copyOut e.txRead (distance e.txRead stop)

theorem Sends.account {e e' : Engine} {event : Event} {calls : List Handover} (h : Sends e event calls e') :
    Account e event calls e' := by
  cases h with
  | rests _ none rests =>
    subst none
    exact ⟨fun _ => (passed_of_same rests.txRead).symm, nofun⟩
  | moves stop target works moves =>
    exact ⟨fun _ => moves.passed, fun ⟨call, mem, broken⟩ => absurd broken (works call mem)⟩
  | cut stop target failed cut =>
    refine ⟨fun up => ?_, fun _ => ⟨cut.status, cut.txRead, cut.interrupt, stop, target, cut.front⟩⟩
    obtain ⟨call, mem, broken⟩ := failed
    rcases up with up | works
    · exact absurd up cut.lost
    · exact absurd broken (works call mem)

/-! ## A connection -/

/-- A history of one connection: it is up whenever a step begins, and no step resets the socket or
loads a state. Its last step may end it. -/
def Connected (e : Engine) : List (Event × ν) → Prop
  | [] => True
  | (event, net) :: events =>
    e.status = .established ∧ event.isReset = false ∧ event.isLoad = false ∧
      Connected (e.step event (Recorded.fresh net)).1 events

instance decidableConnected (e : Engine) : (events : List (Event × ν)) → Decidable (Connected e events)
  | [] => .isTrue trivial
  | (event, net) :: events =>
    have := decidableConnected (e.step event (Recorded.fresh net)).1 events
    inferInstanceAs (Decidable (_ ∧ _ ∧ _ ∧ _))

/-- Bytes that the read position passes over in a history, step by step. -/
def passedOver (e : Engine) : List (Event × ν) → Bytes
  | [] => []
  | (event, net) :: events =>
    let e' := (e.step event (Recorded.fresh net)).1
    e.passed e' ++ passedOver e' events

section Cons

variable {e e' : Engine} {event : Event} {net : ν} {r : Recorded ν}

theorem connected_cons (run : e.step event (Recorded.fresh net) = (e', r)) {later : List (Event × ν)} :
    Connected e ((event, net) :: later) ↔
      e.status = .established ∧ event.isReset = false ∧ event.isLoad = false ∧ Connected e' later := by
  rw [Connected, run]

theorem passedOver_cons (run : e.step event (Recorded.fresh net) = (e', r)) (later : List (Event × ν)) :
    e.passedOver ((event, net) :: later) = e.passed e' ++ e'.passedOver later := by
  rw [passedOver, run]

end Cons

theorem connected_append {e : Engine} {events later : List (Event × ν)} (h : Connected e (events ++ later)) :
    Connected e events ∧ Connected (e.after events) later := by
  induction events generalizing e with
  | nil => exact ⟨trivial, h⟩
  | cons event events ih =>
    obtain ⟨event, net⟩ := event
    obtain ⟨e', r, run⟩ := exists_run e event (.fresh net)
    obtain ⟨status, noReset, noLoad, rest⟩ := (connected_cons run).mp h
    obtain ⟨here, there⟩ := ih rest
    exact ⟨(connected_cons run).mpr ⟨status, noReset, noLoad, here⟩, after_cons run events ▸ there⟩

/-- The first step of a connection, and what follows it. -/
theorem connected_step {e e' : Engine} {event : Event} {net : ν} {r : Recorded ν} {id : SocketId}
    {later : List (Event × ν)} (host : e.status = .established → e.host = .stream id)
    (connected : Connected e ((event, net) :: later)) (run : e.step event (Recorded.fresh net) = (e', r)) :
    WritesTo id r.handed ∧ Sends e event r.handed e' ∧
      (e'.status = .established → e'.host = .stream id) ∧ Connected e' later := by
  obtain ⟨status, noReset, noLoad, rest⟩ := (connected_cons run).mp connected
  obtain ⟨calls, handed, writes, sends⟩ := step_sends (host status) status noReset noLoad run
  obtain rfl : r.handed = calls := handed
  exact ⟨writes, sends, fun up => (sends.host up).trans (host status), rest⟩

/-- **Run.** Over a connection the host takes the bytes that the read position passes over. -/
theorem run_passes {e : Engine} {id : SocketId} {run : List (Event × ν)}
    (host : e.status = .established → e.host = .stream id) (connected : Connected e run) :
    WritesTo id (e.handover run) ∧ ((e.after run).status = .established → (e.after run).host = .stream id) ∧
    ((e.after run).status = .established ∨ (∀ call ∈ e.handover run, ¬ call.Failed) →
      takenBytes (e.handover run) = e.passedOver run) := by
  induction run generalizing e with
  | nil => exact ⟨writesTo_nil id, host, fun _ => rfl⟩
  | cons event later ih =>
    obtain ⟨event, net⟩ := event
    obtain ⟨e', r, run⟩ := exists_run e event (.fresh net)
    obtain ⟨writes, sends, host', rest⟩ := connected_step host connected run
    obtain ⟨writes', last, passes⟩ := ih host' rest
    rw [after_cons run, handover_cons run, passedOver_cons run, takenBytes_append]
    refine ⟨writes.append writes', last, fun kept => ?_⟩
    have here : e'.status = .established ∨ ∀ call ∈ r.handed, ¬ call.Failed := by
      refine kept.imp (fun up => ?_) fun works call mem => works call (List.mem_append_left _ mem)
      cases later with
      | nil => exact up
      | cons => exact rest.1
    have there := kept.imp_right fun works call mem => works call (List.mem_append_right _ mem)
    rw [sends.account.passed here, passes there]

/-! ## The latest SEND -/

/-- What is left to be sent of a SEND up to `stop` is what the read position has yet to pass. -/
def Owes (e : Engine) (stop : RingOffset) : Prop :=
  e.sendEnd = if e.txRead = stop then none else some stop

/-- A step on the way to `stop`, which is not passed; the flag for a completed SEND goes up on arrival. -/
structure Approaches (e : Engine) (stop : RingOffset) (event : Event) (e' : Engine) : Prop where
  target : ∀ position, e.target event = some position → position = stop
  ahead : distance e.txRead e'.txRead + distance e'.txRead stop = distance e.txRead stop
  arrived : e.txRead ≠ stop → e'.txRead = stop → e'.SendOk
  flag : e'.SendOk → e.SendOk ∨ e.txRead ≠ stop ∧ e'.txRead = stop
  up : e'.status = .established → Owes e' stop

theorem Approaches.stays {e e' : Engine} {stop : RingOffset} {event : Event} (h : Approaches e stop event e')
    (there : e.txRead = stop) : e'.txRead = stop := by
  have ahead := h.ahead
  rw [there, distance_self] at ahead
  rw [← distance_eq_zero]
  omega

/-- **Step.** While a SEND is the latest, every step approaches its end. -/
theorem Sends.approaches {e e' : Engine} {stop : RingOffset} {event : Event} {calls : List Handover}
    (h : Sends e event calls e') (noSend : event.command? ≠ some .send) (owes : Owes e stop) :
    Approaches e stop event e' := by
  have target (position : RingOffset) (same : e.target event = some position) :
      e.txRead ≠ stop ∧ position = stop := by
    rw [target_other noSend, owes] at same
    split at same
    · cases same
    · exact ⟨‹_›, (Option.some.inj same).symm⟩
  have ends (position : RingOffset) (same : e.target event = some position) := (target position same).2
  cases h with
  | rests _ _ rests =>
    refine ⟨ends, by rw [rests.txRead, distance_self, Nat.zero_add], fun short arrival => ?_, fun flag => ?_,
      fun up => ?_⟩
    · exact absurd (rests.txRead.symm.trans arrival) short
    · exact .inl (rests.flag flag)
    · rw [Owes, rests.txRead, (rests.up up).2.1, owes]
  | moves position same _ moves =>
    obtain ⟨short, rfl⟩ := target position same
    exact ⟨ends, moves.ahead, fun _ => moves.arrived, fun flag => (moves.flag flag).imp_right (⟨short, ·⟩),
      fun up => (moves.up up).1⟩
  | cut position same _ cut =>
    refine ⟨ends, by rw [cut.txRead, distance_self, Nat.zero_add], fun short arrival => ?_, fun flag => ?_,
      fun up => ?_⟩
    · exact absurd (cut.txRead.symm.trans arrival) short
    · rw [SendOk, cut.interrupt] at flag
      exact .inl flag
    · exact absurd up cut.lost

/-- **Run.** As long as a SEND is the latest, it is owed; its end, once reached, is not left. -/
theorem run_owes {e : Engine} {id : SocketId} {stop : RingOffset} {run : List (Event × ν)}
    (host : e.status = .established → e.host = .stream id) (connected : Connected e run)
    (noSend : ∀ event ∈ run, event.1.command? ≠ some .send) (owes : e.status = .established → Owes e stop) :
    ((e.after run).status = .established → Owes (e.after run) stop) ∧
    (e.txRead = stop → (e.after run).txRead = stop) := by
  induction run generalizing e with
  | nil => exact ⟨owes, fun there => there⟩
  | cons event later ih =>
    obtain ⟨event, net⟩ := event
    obtain ⟨e', r, run⟩ := exists_run e event (.fresh net)
    obtain ⟨-, sends, host', rest⟩ := connected_step host connected run
    have step := sends.approaches (noSend _ (List.mem_cons_self ..)) (owes connected.1)
    obtain ⟨owes', stays⟩ := ih host' rest (fun event mem => noSend event (List.mem_cons_of_mem _ mem)) step.up
    rw [after_cons run]
    exact ⟨owes', fun there => stays (step.stays there)⟩

/-- An end that has been reached is not left. -/
theorem stays_arrived {e : Engine} {id : SocketId} {stop : RingOffset} {early later : List (Event × ν)}
    (host : e.status = .established → e.host = .stream id) (connected : Connected e (early ++ later))
    (noSend : ∀ event ∈ early ++ later, event.1.command? ≠ some .send)
    (owes : e.status = .established → Owes e stop) (there : (e.after early).txRead = stop) :
    (e.after (early ++ later)).txRead = stop := by
  obtain ⟨here, rest⟩ := connected_append connected
  have owes' := (run_owes host here (fun event mem => noSend event (List.mem_append_left _ mem)) owes).1
  rw [after_append]
  exact (run_owes (run_passes host here).2.1 rest
    (fun event mem => noSend event (List.mem_append_right _ mem)) owes').2 there

/-- Every step after a SEND, the latest one, approaches its end. -/
theorem later_approaches {e : Engine} {id : SocketId} {stop : RingOffset} {front rest : List (Event × ν)}
    {event : Event} {net : ν} (host : e.status = .established → e.host = .stream id)
    (connected : Connected e (front ++ (event, net) :: rest))
    (noSend : ∀ step ∈ front ++ (event, net) :: rest, step.1.command? ≠ some .send)
    (owes : e.status = .established → Owes e stop) :
    Approaches (e.after front) stop event (e.after (front ++ [(event, net)])) := by
  obtain ⟨here, there⟩ := connected_append connected
  have owes' := (run_owes host here (fun step mem => noSend step (List.mem_append_left _ mem)) owes).1
  obtain ⟨e', r, run⟩ := exists_run (e.after front) event (.fresh net)
  obtain ⟨-, sends, -, -⟩ := connected_step (run_passes host here).2.1 there run
  rw [after_append, after_cons run []]
  exact sends.approaches (noSend (event, net) (by simp)) (owes' there.1)

/-- What SEND does in its own step. -/
theorem Sends.send {e e' : Engine} {event : Event} {calls : List Handover} (h : Sends e event calls e')
    (send : event.command? = some .send) :
    distance e.txRead e'.txRead + distance e'.txRead e.txWrite = distance e.txRead e.txWrite ∧
    (e'.txRead = e.txWrite → e'.SendOk) ∧ (e'.SendOk → e.SendOk ∨ e'.txRead = e.txWrite) ∧
    (e'.status = .established → Owes e' e.txWrite) := by
  have target (position : RingOffset) (same : e.target event = some position) : e.txWrite = position :=
    Option.some.inj ((target_send send).symm.trans same)
  cases h with
  | rests noSend => exact absurd send noSend
  | moves position same _ moves =>
    obtain rfl := target position same
    exact ⟨moves.ahead, moves.arrived, moves.flag, fun up => (moves.up up).1⟩
  | cut position same _ cut =>
    obtain rfl := target position same
    refine ⟨by rw [cut.txRead, distance_self, Nat.zero_add], fun arrival => ?_, fun flag => ?_, fun up => ?_⟩
    · exact absurd (cut.txRead.symm.trans arrival) cut.short
    · rw [SendOk, cut.interrupt] at flag
      exact .inl flag
    · exact absurd up cut.lost

/-- The read position is at `stop` after a history and was not there after any shorter one, the empty
one apart. -/
def Arrives (e : Engine) (stop : RingOffset) (front : List (Event × ν)) (last : Event × ν) : Prop :=
  (e.after (front ++ [last])).txRead = stop ∧
    ∀ early, early ≠ [] → early <+: front → (e.after early).txRead ≠ stop

/-- What becomes of a SEND that is the first step of a history and its only SEND: in every step the
bytes go up to the write position at SEND, the read position does not pass it, and the flag for a
completed SEND goes up in the step in which the read position arrives there, and in no other. -/
def Completes (e : Engine) (run : List (Event × ν)) : Prop :=
  ∀ front last rest, run = front ++ last :: rest →
    let stop := e.txWrite
    let before := e.after front
    let now := e.after (front ++ [last])
    (∀ position, before.target last.1 = some position → position = stop) ∧
    distance before.txRead now.txRead + distance now.txRead stop = distance before.txRead stop ∧
    (Arrives e stop front last → now.SendOk) ∧
    (now.SendOk → before.SendOk ∨ Arrives e stop front last)

/-- **A SEND is completed in the step in which the read position arrives.** -/
theorem completes {e : Engine} {id : SocketId} {send : Event} {net : ν} {later : List (Event × ν)}
    (host : e.status = .established → e.host = .stream id) (connected : Connected e ((send, net) :: later))
    (gives : send.command? = some .send) (noSend : ∀ event ∈ later, event.1.command? ≠ some .send) :
    Completes e ((send, net) :: later) := by
  obtain ⟨e₁, r₁, sent⟩ := exists_run e send (.fresh net)
  obtain ⟨-, sends, host₁, connected₁⟩ := connected_step host connected sent
  obtain ⟨ahead, arrived, flag, owes⟩ := sends.send gives
  intro front last rest split
  cases front with
  | nil =>
    obtain ⟨rfl, -⟩ := List.cons.inj split
    have none (early : List (Event × ν)) (some : early ≠ []) (before : early <+: []) :
        (e.after early).txRead ≠ e.txWrite := absurd (List.prefix_nil.mp before) some
    dsimp only [Arrives]
    rw [List.nil_append, after_cons sent []]
    exact ⟨fun position same => (Option.some.inj ((target_send gives).symm.trans same)).symm, ahead,
      fun first => arrived first.1, fun up => (flag up).imp_right (⟨·, none⟩)⟩
  | cons first front =>
    obtain ⟨rfl, (tail : later = front ++ last :: rest)⟩ := List.cons.inj split
    subst tail
    have step := later_approaches host₁ connected₁ noSend owes
    have short (far : (e₁.after front).txRead ≠ e.txWrite) (early : List (Event × ν)) (some : early ≠ [])
        (before : early <+: (send, net) :: front) : (e.after early).txRead ≠ e.txWrite := by
      obtain ⟨event, early, rfl⟩ := List.exists_cons_of_ne_nil some
      obtain ⟨rfl, between, rfl⟩ := List.cons_prefix_cons.mp before
      rw [after_cons sent]
      refine fun there => far (stays_arrived host₁ (connected_append connected₁).1 ?_ owes there)
      exact fun event mem => noSend event (List.mem_append_left _ mem)
    have far (first : Arrives e e.txWrite ((send, net) :: front) last) : (e₁.after front).txRead ≠ e.txWrite :=
      after_cons sent front ▸ first.2 _ (List.cons_ne_nil _ _) (List.prefix_refl _)
    dsimp only
    rw [Arrives, List.cons_append, after_cons sent, after_cons sent]
    rw [Arrives, List.cons_append, after_cons sent] at far
    exact ⟨step.target, step.ahead, fun first => step.arrived (far first) first.1,
      fun up => (step.flag up).imp_right fun arrival => ⟨arrival.2, short arrival.1⟩⟩

/-- **Integrity of a transmit stream.** After every history from power-on, and whatever the host
answers: over a connection the host takes, on one stream and in order, the bytes that the chip's read
position passes over, each once, unless a write fails for good (`Account`, and `passedOver` for the whole
connection); and the latest SEND is completed when the position arrives at its end, which it does not
pass (`Completes`). -/
theorem stream_integrity (history run : List (Event × ν)) (connected : Connected (powerOn.trace history) run) :
    let e := powerOn.trace history
    (∃ id, WritesTo id (e.handover run)) ∧
    (∀ front event net rest, run = front ++ (event, net) :: rest →
      let before := e.after front
      let ended := before.step event (Recorded.fresh net)
      Account before event ended.2.handed ended.1) ∧
    ((e.after run).status = .established ∨ (∀ call ∈ e.handover run, ¬ call.Failed) →
      takenBytes (e.handover run) = e.passedOver run) ∧
    ∀ front send later, run = front ++ send :: later → send.1.command? = some .send →
      (∀ event ∈ later, event.1.command? ≠ some .send) → Completes (e.after front) (send :: later) := by
  intro e
  have staged : Staged e := staged_trace history
  obtain ⟨id, host⟩ : ∃ id, e.status = .established → e.host = .stream id := by
    by_cases up : e.status = .established
    · exact (staged.stream up).imp fun _ host _ => host
    · exact ⟨⟨0⟩, fun up' => absurd up' up⟩
  obtain ⟨writes, -, passes⟩ := run_passes host connected
  refine ⟨⟨id, writes⟩, fun front event net rest split => ?_, passes, fun front send later split gives noSend => ?_⟩
  · obtain ⟨here, there⟩ := connected_append (split ▸ connected)
    exact (connected_step (run_passes host here).2.1 there rfl).2.1.account
  · obtain ⟨here, there⟩ := connected_append (split ▸ connected)
    exact completes (run_passes host here).2.1 there gives noSend

/-- A network with one connection, whose other end takes so many bytes. -/
def taking (room : Nat) : Network where
  sockets := [(⟨0⟩, .tcp none (.connected 0 .opener ⟨Ipv4.localhost, 80⟩))]
  links := #[{ opener := { outside := false, window := some room }, answerer := { outside := true } }]

def connectedSocket : List (Event × Network) :=
  [(.write {} Cell.mode Protocol.tcp.code, {}), (.command {} Command.openSocket.code, {}),
    (.command {} Command.connect.code, { sockets := [(⟨0⟩, .tcp none .fresh)] }), (.poll, taking 0)]

/-- SEND of three bytes, of which the host takes two, none and one, and a fourth byte stored. A signal
interrupts the first write. -/
def slowSend : List (Event × Network) :=
  [(.storeTx 0 1, {}), (.storeTx 1 2, {}), (.storeTx 2 3, {}), (.write {} (Cell.txWrite + 1) 3, {}),
    (.command {} Command.send.code, { taking 2 with faults := [(.write, .error .eintr)] }),
    (.poll, taking 0), (.poll, taking 1),
    (.storeTx 3 4, {}), (.write {} (Cell.txWrite + 1) 4, {})]

/-- SEND that the host refuses for good. -/
def lostSend : Event × Network :=
  (.command {} Command.send.code, { taking 1 with faults := [(.write, .error .econnreset)] })

theorem stream_integrity_slow_host :
    let e := powerOn.trace connectedSocket
    Connected e (slowSend ++ [lostSend]) ∧
    e.passedOver slowSend = [1, 2, 3] ∧ takenBytes (e.handover slowSend) = [1, 2, 3] ∧
    Completes (e.after (slowSend.take 4)) (slowSend.drop 4) ∧
    (e.after (slowSend ++ [lostSend])).status = .closed ∧
    (e.after (slowSend ++ [lostSend])).txRead = (e.after slowSend).txRead := by
  have connected : Connected (powerOn.trace connectedSocket) (slowSend ++ [lostSend]) := by decide +kernel
  obtain ⟨-, -, taken, sends⟩ := stream_integrity connectedSocket slowSend (connected_append connected).1
  obtain ⟨-, accounts, -, -⟩ := stream_integrity connectedSocket (slowSend ++ [lostSend]) connected
  obtain ⟨closed, txRead, -⟩ := (accounts slowSend lostSend.1 lostSend.2 [] rfl).failed (by decide +kernel)
  have passed : (powerOn.trace connectedSocket).passedOver slowSend = [1, 2, 3] := by decide +kernel
  dsimp only
  rw [after_append _ slowSend [lostSend]]
  exact ⟨connected, passed, (taken (.inl (by decide +kernel))).trans passed,
    sends (slowSend.take 4) _ (slowSend.drop 5) rfl (by decide) (by decide +kernel), closed, txRead⟩

end EtherChip.Engine

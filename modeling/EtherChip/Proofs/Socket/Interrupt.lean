import EtherChip.Proofs.Socket.Dispatch
import EtherChip.Proofs.Socket.Stage
import EtherChip.Proofs.Socket.Stream
import Mathlib.Data.List.Induction
import Mathlib.Data.Nat.Bitwise

/-!
# Interrupt flags

Two flags are ever up: data has been taken into the receive ring (`Accepts`), and a SEND has been
completed (`CompletesSend`). `step_flagged` says what becomes of them in one step, whatever the host
answers: the firmware or a reset takes them down, these two occasions raise them, and nothing else
concerns them. So each of them tells, at every point of every history, whether its occasion has come
since it was last taken down (`interrupt_latches`).

A SEND on a stream is complete when the chip's read position is at the write position that it captured.
`Unreached` carries this over time: while a SEND is under way the position is still ahead, so the step
in which it is reached is the one that completes the SEND. A SEND that is given while one is under way
takes its place.
-/
namespace EtherChip.Engine

open RingOffset RegisterBank

theorem or_and (a b c : UInt8) : (a ||| b) &&& c = (a &&& c) ||| (b &&& c) :=
  UInt8.toBitVec_inj.1 BitVec.and_or_distrib_right

/-- The interrupt flags. -/
def flags (e : Engine) : UInt8 := e.regs.get Cell.interrupt

/-- The flags that an event takes down: all at a reset, and those that the firmware writes a one to. -/
def Event.clears : Event → UInt8
  | .reset => 0xFF
  | .write _ cell value => if cell = Cell.interrupt then value else 0
  | _ => 0

/-- A SEND under way has not reached the position that it captured. -/
def Unreached (e : Engine) : Prop := ∀ stop ∈ e.sendEnd, e.txRead ≠ stop

theorem unreached_of_none {e : Engine} (h : e.sendEnd = none) : e.Unreached := by
  rw [Unreached, h]
  exact nofun

/-- The flag for received data, if what arrives fits. -/
def arrival (e : Engine) (arrived : Option Bytes) : UInt8 :=
  if ∃ data ∈ arrived, data.length ≤ e.rxRoom then Interrupt.received else 0

/-! ## Changes that complete no SEND -/

/-- A change that raises `raised` and completes no SEND; a SEND under way goes on or is given up. -/
structure Calm (e : Engine) (raised : UInt8) (e' : Engine) : Prop where
  flags : e'.flags = e.flags ||| raised
  txRead : e'.txRead = e.txRead
  sendEnd : e'.sendEnd = none ∨ e'.sendEnd = e.sendEnd

theorem Calm.unreached {e e' : Engine} {raised : UInt8} (h : Calm e raised e') (unreached : e.Unreached) :
    e'.Unreached := by
  rcases h.sendEnd with none | same
  · exact unreached_of_none none
  · rw [Unreached, same, h.txRead]
    exact unreached

theorem Calm.trans {e mid e' : Engine} {raised : UInt8} (h : Calm e 0 mid) (h' : Calm mid raised e') :
    Calm e raised e' := by
  refine ⟨?_, h'.txRead.trans h.txRead, ?_⟩
  · rw [h'.flags, h.flags, UInt8.or_zero]
  · rcases h'.sendEnd with none | same
    · exact .inl none
    · exact h.sendEnd.imp same.trans same.trans

/-- Registers other than the flags and the chip's read position are free. -/
theorem calm_of_regs (e : Engine) {regs : RegisterBank} (same : regs.get Cell.interrupt = e.regs.get Cell.interrupt)
    (txRead : regs.word Cell.txRead = e.regs.word Cell.txRead) : Calm e 0 { e with regs := regs } :=
  ⟨same.trans UInt8.or_zero.symm, congrArg ofWord txRead, .inr rfl⟩

theorem calm_refl (e : Engine) : Calm e 0 e := calm_of_regs e rfl rfl

/-- Nor does it matter which host socket there is, or which status is entered. -/
theorem calm_enter (e : Engine) (host : HostSocket) (status : Status) :
    Calm e 0 (enter { e with host := host } status) :=
  ⟨(get_set_of_ne _ _ (by decide)).trans UInt8.or_zero.symm,
    congrArg ofWord (word_set_of_apart _ _ (by decide) (by decide)), .inr rfl⟩

theorem calm_closed (e : Engine) : Calm e 0 e.closed :=
  ⟨(interrupt_closed e).trans UInt8.or_zero.symm, txRead_closed e, .inl rfl⟩

theorem calm_showReceived (e : Engine) : Calm e 0 e.showReceived :=
  calm_of_regs e (get_setWord_of_ne _ _ (by decide) (by decide)) (word_setWord_of_apart _ _ (by decide))

theorem calm_deliver (e : Engine) (data : Bytes) : Calm e (e.arrival (some data)) (e.deliver data) := by
  rw [arrival, deliver_eq]
  by_cases fits : data.length ≤ e.rxRoom
  · rw [if_pos fits, if_pos ⟨data, rfl, fits⟩]
    have apart := apart_deliver e data
    rw [deliver_eq, if_pos fits] at apart
    exact ⟨interrupt_appended e data, apart.txRead, .inr apart.sendEnd⟩
  · rw [if_neg fits, if_neg (by rintro ⟨_, ⟨⟩, small⟩; exact fits small)]
    exact calm_refl e

theorem arrival_none (e : Engine) : e.arrival none = 0 := if_neg nofun

/-- A write to a register cell moves no position of the chip, and only one to the flags concerns them. -/
theorem flags_store (e : Engine) (cell : Nat) (value : UInt8) :
    (e.store cell value).flags =
      if cell = Cell.interrupt then e.flags &&& (~~~value ||| Interrupt.reserved) else e.flags := by
  have free (e : Engine) : e.showFree.flags = e.flags := get_setWord_of_ne _ _ (by decide) (by decide)
  unfold store
  split
  · exact get_set_self _ _ (by decide)
  split
  · rfl
  split
  · exact (free _).trans (get_set_of_ne _ _ (by decide))
  split
  · exact (free _).trans (get_set_of_ne _ _ (by decide))
  split
  · exact get_set_of_ne _ _ (by decide)
  · exact get_set_of_ne _ _ (Ne.symm ‹_›)

/-! ## Commands and polls that complete no SEND -/

variable {ν : Type} [NetHost ν]

/-- Opening a socket again leaves its flags as they are. -/
theorem Reopened.flags {e e' : Engine} (h : Reopened e e') : e'.flags = e.flags ∧ e'.sendEnd = none := by
  have emptied : e.emptied.flags = e.flags := by
    unfold Engine.flags Engine.emptied resetPointers
    simp (disch := decide) only [get_setWord_of_ne]
  cases h with
  | failed => exact ⟨emptied, rfl⟩
  | stream | datagram => exact ⟨(get_set_of_ne _ _ (by decide)).trans emptied, rfl⟩

/-- A command that is no SEND and opens nothing. -/
theorem command_calm (e : Engine) (cfg : NetConfig) (code : UInt8) (noSend : Command.ofCode? code ≠ some .send)
    (opens : ¬ e.Reopens (Command.ofCode? code)) : Always (e.command cfg code : StateM ν _) (Calm e 0) := by
  unfold command
  generalize Command.ofCode? code = command at *
  split
  case h_1 status =>
    refine (openSocket_cases e cfg).mono fun _ opened => ?_
    rw [opened.2 fun supported => opens ⟨rfl, status, supported⟩]
    exact calm_refl e
  case h_2 =>
    unfold connect
    split
    · exact .pure (calm_refl e)
    · refine .bind (.any _) fun r _ => ?_
      cases r with
      | error => exact .pure (calm_refl e)
      | ok => exact .pure ⟨UInt8.or_zero.symm, rfl, .inr rfl⟩
  case h_3 =>
    refine .bind (.any _) fun r _ => ?_
    cases r with
    | error => exact .pure (calm_refl e)
    | ok host => exact .pure (calm_enter e host .listen)
  case h_10 | h_11 => exact absurd rfl noSend
  case h_12 | h_13 => exact .pure (calm_showReceived e)
  case h_14 => exact .pure (calm_refl e)
  all_goals exact fun _ => calm_closed e

theorem pollConnect_calm (e : Engine) : Always (e.pollConnect : StateM ν _) (Calm e 0) := by
  refine .bind (.any _) fun r _ => ?_
  obtain ⟨answer, host⟩ := r
  rcases answer with _ | _ | peer
  · refine .bind (.any _) fun r _ => ?_
    cases r with
    | error => exact fun _ => calm_closed e
    | ok => exact .bind (.any _) fun _ _ => .pure ⟨UInt8.or_zero.symm, rfl, .inr rfl⟩
  · exact .pure ⟨UInt8.or_zero.symm, rfl, .inr rfl⟩
  · exact .pure (calm_enter e host .established)

theorem pollListener_calm (e : Engine) : Always (e.pollListener : StateM ν _) (Calm e 0) := by
  refine .bind (.any _) fun r _ => ?_
  obtain ⟨answer, host⟩ := r
  rcases answer with _ | _ | peer
  · exact .pure ⟨UInt8.or_zero.symm, rfl, .inr rfl⟩
  · exact .pure ⟨UInt8.or_zero.symm, rfl, .inr rfl⟩
  have shown : Calm e 0 { e with regs := e.regs.showPeer peer } := by
    refine calm_of_regs e ?_ ?_
    · rw [showPeer, get_setWord_of_ne _ _ (by decide) (by decide), setDestAddr]
      simp (disch := decide) only [get_set_of_ne]
    · rw [showPeer, word_setWord_of_apart _ _ (by decide), word_setDestAddr _ _ (by decide)]
  exact .pure (shown.trans (calm_enter { e with regs := e.regs.showPeer peer } host .established))

theorem pollStream_calm (e : Engine) (room : Nat) (net : ν) :
    Calm e (e.arrival (e.host.receiveStream room net).1.bytes?) (e.pollStream room net).1 := by
  rw [pollStream, bind_run]
  generalize e.host.receiveStream room net = found
  obtain ⟨found, net'⟩ := found
  cases found with
  | idle => exact (arrival_none e).symm ▸ calm_refl e
  | data bytes => exact calm_deliver e bytes
  | closed => exact (arrival_none e).symm ▸ calm_closed e

theorem pollDatagram_calm (e : Engine) (room : Nat) (net : ν) :
    Calm e (e.arrival (stored? (e.host.receiveDatagram room net).1)) (e.pollDatagram room net).1 := by
  rw [pollDatagram, bind_run]
  generalize e.host.receiveDatagram room net = found
  obtain ⟨found, net'⟩ := found
  rcases found with _ | _ | _ | _ | _
  case ok.received => exact calm_deliver e _
  all_goals exact (arrival_none e).symm ▸ calm_refl e

/-! ## Completing a SEND -/

/-- An event completes a SEND: every SEND on a datagram socket does, and on a stream an event at whose
end the chip's read position is where the SEND under way, or one that the event itself gives, has to
arrive. -/
def CompletesSend (e : Engine) (net : ν) (event : Event) : Prop :=
  match e.status with
  | .udpReady => event.command? = some .send
  | .established => event.isReset = false ∧ e.target event = some (e.step event net).1.txRead
  | _ => False

instance (e : Engine) (net : ν) (event : Event) : Decidable (e.CompletesSend net event) := by
  unfold CompletesSend
  split <;> infer_instance

/-- What an event raises. -/
def raising (e : Engine) (net : ν) (event : Event) : UInt8 :=
  (if e.Accepts net event then Interrupt.received else 0) |||
    (if e.CompletesSend net event then Interrupt.sendOk else 0)

theorem completesSend_udpReady {e : Engine} (status : e.status = .udpReady) (net : ν) (event : Event) :
    e.CompletesSend net event ↔ event.command? = some .send := by
  rw [CompletesSend, status]

theorem completesSend_established {e : Engine} (status : e.status = .established) (net : ν) (event : Event) :
    e.CompletesSend net event ↔ event.isReset = false ∧ e.target event = some (e.step event net).1.txRead := by
  rw [CompletesSend, status]

/-- An event that gives no SEND and moves no position completes none. -/
theorem completes_not {e : Engine} {net : ν} {event : Event} (unreached : e.Unreached)
    (noSend : event.command? ≠ some .send) (txRead : (e.step event net).1.txRead = e.txRead) :
    ¬ e.CompletesSend net event := by
  unfold CompletesSend
  split
  · exact noSend
  · rintro ⟨-, arrived⟩
    rw [target_other noSend, txRead] at arrived
    exact unreached _ arrived rfl
  · exact id

/-- What a flush leaves of a SEND up to `stop`. -/
structure Sent (e : Engine) (stop : RingOffset) (e' : Engine) : Prop where
  flags : e'.flags = e.flags ||| (if e'.txRead = stop then Interrupt.sendOk else 0)
  unreached : e'.Unreached
  intake : e'.intake = e.intake

theorem sent_short {e e' : Engine} {stop : RingOffset} (flags : e'.flags = e.flags) (short : e'.txRead ≠ stop)
    (sendEnd : e'.sendEnd = none ∨ e'.sendEnd = some stop) (intake : e'.intake = e.intake) : Sent e stop e' where
  flags := by rw [flags, if_neg short, UInt8.or_zero]
  unreached := by
    rcases sendEnd with none | same
    · exact unreached_of_none none
    · rw [Unreached, same]
      rintro _ ⟨⟩
      exact short
  intake := intake

theorem sent_completeSend (e : Engine) (stop : RingOffset) :
    Sent e stop (completeSend { e with sendEnd := none } stop) where
  flags := by
    rw [if_pos (txRead_completeSend _ _)]
    exact interrupt_completeSend _ _
  unreached := unreached_of_none (sendEnd_completeSend _ _)
  intake := intake_completeSend _ _

theorem flags_showSent (e : Engine) (position : RingOffset) : (e.showSent position).flags = e.flags :=
  (get_setWord_of_ne _ _ (by decide) (by decide)).trans (get_setWord_of_ne _ _ (by decide) (by decide))

/-- **A flush raises the flag exactly if it brings the read position to the end of the SEND.** -/
theorem flushStream_sent {e : Engine} {stop : RingOffset} (sending : e.sendEnd = some stop) :
    Always (e.flushStream : StateM ν _) (Sent e stop) := by
  rw [flushStream_of_some sending]
  split
  · exact .pure (sent_completeSend e stop)
  rename_i some
  have short : e.txRead ≠ stop := fun same => some (distance_eq_zero.mpr same)
  refine .bind (.any _) fun r _ => ?_
  cases r with
  | error _ =>
    have still : e.closed.txRead ≠ stop := fun same => short ((txRead_closed e).symm.trans same)
    exact fun _ => sent_short (interrupt_closed e) still (.inl rfl) Quiet.released.intake
  | ok sent =>
    dsimp only
    split
    · rename_i part
      split
      · exact .pure (sent_short rfl short (.inr sending) rfl)
      · have ahead : (e.showSent (e.txRead.advance sent)).txRead ≠ stop := by
          rw [txRead_showSent, Ne, ← distance_eq_zero, distance_advance_left (Nat.le_of_lt part)]
          omega
        exact .pure (sent_short (flags_showSent _ _) ahead (.inr sending) (intake_showSent _ _))
    · exact .pure (sent_completeSend e stop)

/-! ## One step -/

/-- What a step does to the flags, and to a SEND under way. -/
structure Flagged (e : Engine) (net : ν) (event : Event) : Prop where
  flags : (e.step event net).1.flags = (e.flags &&& ~~~event.clears) ||| e.raising net event
  unreached : (e.step event net).1.Unreached

theorem raising_of_not {e : Engine} {net : ν} {event : Event} (none : ¬ e.CompletesSend net event) :
    e.raising net event = e.arrival (e.arriving net event) := by
  rw [raising, if_neg none, UInt8.or_zero]
  rfl

theorem raising_of_completes {e : Engine} {net : ν} {event : Event} (completes : e.CompletesSend net event) :
    e.raising net event = e.arrival (e.arriving net event) ||| Interrupt.sendOk := by
  rw [raising, if_pos completes]
  rfl

theorem keep_flags (flags : UInt8) : flags &&& ~~~(0 : UInt8) = flags := UInt8.and_neg_one

theorem flagged_of_calm {e : Engine} {net : ν} {event : Event} (unreached : e.Unreached)
    (noSend : event.command? ≠ some .send) (clears : event.clears = 0)
    (h : Calm e (e.arrival (e.arriving net event)) (e.step event net).1) : Flagged e net event where
  flags := by rw [h.flags, clears, keep_flags, raising_of_not (completes_not unreached noSend h.txRead)]
  unreached := h.unreached unreached

/-- A command that is no SEND takes nothing in and completes no SEND. -/
theorem nothing_of_command {e : Engine} {event : Event} {command : Command} (unreached : e.Unreached)
    (gives : event.command? = some command) (noSend : command ≠ .send) (net : ν) :
    e.arriving net event = none ∧ ¬ e.CompletesSend net event ∧
      (e.step event net).1.flags = e.flags ∧ (e.step event net).1.Unreached := by
  obtain ⟨cfg, code, ofCode, same⟩ := step_of_command (ν := ν) gives
  obtain ⟨run, arriving⟩ := same e net
  have other : some command ≠ some .send := fun send => noSend (Option.some.inj send)
  refine ⟨arriving.trans (replied?_eq_none e cfg net fun send => other send.2), ?_⟩
  by_cases opens : e.Reopens (some command)
  · obtain ⟨kept, none⟩ := (command_reopened e cfg code (ofCode ▸ opens) net).flags
    rw [CompletesSend, opens.2.1, run]
    exact ⟨id, kept, unreached_of_none none⟩
  · have calm := command_calm e cfg code (ofCode ▸ other) (ofCode ▸ opens) net
    rw [← run] at calm
    exact ⟨completes_not unreached (gives ▸ other) calm.txRead, calm.flags.trans UInt8.or_zero,
      calm.unreached unreached⟩

theorem flagged_of_command {e : Engine} {net : ν} {event : Event} {command : Command} (unreached : e.Unreached)
    (gives : event.command? = some command) (noSend : command ≠ .send) (clears : event.clears = 0) :
    Flagged e net event := by
  obtain ⟨nothing, completes, kept, still⟩ := nothing_of_command unreached gives noSend net
  refine ⟨?_, still⟩
  rw [kept, clears, keep_flags, raising_of_not completes, nothing, arrival_none, UInt8.or_zero]

/-- A step on a stream that brings a SEND up to `stop` further on, and then takes in what arrives. -/
theorem flagged_of_sent {e mid : Engine} {net : ν} {event : Event} {stop : RingOffset}
    (status : e.status = .established) (noReset : event.isReset = false) (clears : event.clears = 0)
    (target : e.target event = some stop) (sent : Sent e stop mid)
    (after : Calm mid (e.arrival (e.arriving net event)) (e.step event net).1) : Flagged e net event where
  flags := by
    have completes : e.CompletesSend net event ↔ mid.txRead = stop := by
      rw [completesSend_established status, target, after.txRead, Option.some_inj]
      exact ⟨fun h => h.2.symm, fun h => ⟨noReset, h.symm⟩⟩
    rw [after.flags, sent.flags, clears, keep_flags]
    by_cases arrived : mid.txRead = stop
    · rw [if_pos arrived, raising_of_completes (completes.mpr arrived), UInt8.or_assoc,
        UInt8.or_comm Interrupt.sendOk]
    · rw [if_neg arrived, raising_of_not (mt completes.mp arrived), UInt8.or_zero]
  unreached := after.unreached sent.unreached

/-- A SEND on a datagram socket takes a reply in, if there is one, and is complete. -/
theorem sendWaiting_flags (e : Engine) (cfg : NetConfig) (net : ν) (status : e.status = .udpReady) :
    (e.sendWaiting cfg net).1.flags =
        e.flags ||| e.arrival (e.replied? cfg (some .send) net) ||| Interrupt.sendOk ∧
      (e.sendWaiting cfg net).1.sendEnd = e.sendEnd := by
  by_cases nothing : e.waiting = []
  · have replied : e.replied? cfg (some .send) net = none := if_neg fun some => some.2.2 (waiting_eq_nil.mp nothing)
    rw [sendWaiting_nothing nothing, replied, arrival_none, UInt8.or_zero]
    exact ⟨interrupt_completeSend e e.txWrite, sendEnd_completeSend e e.txWrite⟩
  · have replied : e.replied? cfg (some .send) net = e.answered? cfg e.waiting net :=
      if_pos ⟨status, rfl, mt waiting_eq_nil.mpr nothing⟩
    rw [sendWaiting_some nothing, replied]
    cases e.answered? cfg e.waiting net with
    | none =>
      rw [arrival_none, UInt8.or_zero]
      exact ⟨interrupt_completeSend e e.txWrite, sendEnd_completeSend e e.txWrite⟩
    | some reply =>
      have taken := calm_deliver e reply
      refine ⟨?_, (sendEnd_completeSend _ e.txWrite).trans (apart_deliver e reply).sendEnd⟩
      rw [← taken.flags]
      exact interrupt_completeSend (e.deliver reply) e.txWrite

theorem flagged_of_send {e : Engine} {net : ν} {event : Event} (staged : e.Staged) (unreached : e.Unreached)
    (gives : event.command? = some .send) (noReset : event.isReset = false) (clears : event.clears = 0) :
    Flagged e net event := by
  obtain ⟨cfg, code, ofCode, same⟩ := step_of_command (ν := ν) gives
  obtain ⟨run, arriving⟩ := same e net
  have send : (e.command cfg code : StateM ν Engine) = e.command cfg Command.send.code := by
    rw [command, command, ofCode, Command.ofCode?_code]
  rw [send] at run
  by_cases ready : e.status = .udpReady
  · obtain ⟨flags, sendEnd⟩ := sendWaiting_flags e cfg net ready
    have completes := (completesSend_udpReady ready net event).mpr gives
    rw [command_send e cfg (.inr ready), send_udpReady e cfg ready] at run
    refine ⟨?_, ?_⟩ <;> rw [run]
    · rw [flags, clears, keep_flags, raising_of_completes completes, arriving, UInt8.or_assoc]
    · exact unreached_of_none (sendEnd.trans (staged.sendEnd_eq_none (ready ▸ by decide)))
  have nothing : e.arriving net event = none := arriving.trans (replied?_eq_none e cfg net fun send => ready send.1)
  by_cases up : e.status = .established
  · rw [command_send e cfg (.inl up), send_established e cfg up] at run
    have sending : e.capture.sendEnd = some e.txWrite := rfl
    have sent := flushStream_sent sending net
    rw [← run] at sent
    refine flagged_of_sent up noReset clears (target_send gives) ⟨sent.flags, sent.unreached, sent.intake⟩ ?_
    rw [nothing, arrival_none]
    exact calm_refl _
  · have ignored : (e.step event net).1 = e := by
      rw [run, command, Command.ofCode?_code]
      cases status : e.status with
      | established => exact absurd status up
      | udpReady => exact absurd status ready
      | closed | init | listen => rfl
    have completes : ¬ e.CompletesSend net event := by
      unfold CompletesSend
      split
      · exact absurd ‹_› ready
      · exact absurd ‹_› up
      · exact id
    refine ⟨?_, ?_⟩ <;> rw [ignored]
    · rw [clears, keep_flags, raising_of_not completes, nothing, arrival_none, UInt8.or_zero]
    · exact unreached

theorem flagged_of_poll {e : Engine} (net : ν) (unreached : e.Unreached) : Flagged e net .poll := by
  have noSend : (Event.poll).command? ≠ some .send := nofun
  by_cases up : e.status = .established
  · have run : (e.step .poll net).1 = ((e.flushStream net).1.pollStream e.rxRoom (e.flushStream net).2).1 := by
      rw [step, poll, up]
      rfl
    have arriving : e.arriving net .poll =
        ((e.flushStream net).1.host.receiveStream e.rxRoom (e.flushStream net).2).1.bytes? := polled?_established up net
    have taken := pollStream_calm (e.flushStream net).1 e.rxRoom (e.flushStream net).2
    rw [← run, ← arriving] at taken
    cases sending : e.sendEnd with
    | none =>
      have idle : (e.flushStream net).1 = e := by rw [flushStream_of_none sending]; rfl
      rw [idle] at taken
      exact flagged_of_calm unreached noSend rfl taken
    | some stop =>
      have sent := flushStream_sent sending net
      have room : (e.flushStream net).1.rxRoom = e.rxRoom := by rw [← room_intake, sent.intake, room_intake]
      rw [arrival, room] at taken
      exact flagged_of_sent up rfl rfl ((target_other noSend).trans sending) sent taken
  · refine flagged_of_calm unreached noSend rfl ?_
    rw [step, arriving, polled?, poll]
    cases status : e.status with
    | established => exact absurd status up
    | closed => exact (arrival_none e).symm ▸ calm_refl e
    | init => exact (arrival_none e).symm ▸ pollConnect_calm e net
    | listen => exact (arrival_none e).symm ▸ pollListener_calm e net
    | udpReady => exact pollDatagram_calm e e.rxRoom net

/-- Whatever an event does, if a byte is given as a command then that is what happens. -/
theorem flagged_of_code {e : Engine} {net : ν} {event : Event} (staged : e.Staged) (unreached : e.Unreached)
    {cfg : NetConfig} {code : UInt8} (gives : event.command? = Command.ofCode? code)
    (arriving : e.arriving net event = e.replied? cfg (Command.ofCode? code) net)
    (run : (e.step event net).1 = (e.command cfg code net).1) (noReset : event.isReset = false)
    (clears : event.clears = 0) : Flagged e net event := by
  cases ofCode : Command.ofCode? code with
  | none =>
    have noSend : event.command? ≠ some .send := by rw [gives, ofCode]; exact nofun
    refine flagged_of_calm unreached noSend clears ?_
    rw [arriving, replied?_eq_none e cfg net (fun send => noSend (gives.trans send.2)), arrival_none, run]
    exact command_calm e cfg code (gives ▸ noSend) (by rw [ofCode]; exact fun opens => nomatch opens.1) net
  | some command =>
    by_cases send : command = .send
    · exact flagged_of_send staged unreached (gives.trans (ofCode.trans (send ▸ rfl))) noReset clears
    · exact flagged_of_command unreached (gives.trans ofCode) send clears

/-- A write to the flags takes down those that a one is written to. -/
theorem flagged_of_acknowledge {e : Engine} {net : ν} (unreached : e.Unreached)
    (clean : e.flags &&& Interrupt.reserved = 0) (cfg : NetConfig) (value : UInt8) :
    Flagged e net (.write cfg Cell.interrupt value) := by
  have run : (e.step (.write cfg Cell.interrupt value) net).1 = e.store Cell.interrupt value := rfl
  have apart := apart_store e Cell.interrupt value
  have noSend : (Event.write cfg Cell.interrupt value).command? ≠ some .send := nofun
  refine ⟨?_, ?_⟩
  · rw [run, flags_store, if_pos rfl, raising_of_not (completes_not unreached noSend (run ▸ apart.txRead))]
    have down : e.flags &&& (~~~value ||| Interrupt.reserved) = e.flags &&& ~~~value := by
      rw [UInt8.and_comm, or_and, UInt8.and_comm (Interrupt.reserved), clean, UInt8.or_zero, UInt8.and_comm]
    rw [down]
    exact UInt8.or_zero.symm
  · rw [run, Unreached, apart.sendEnd, apart.txRead]
    exact unreached

/-- No flag but the two is up. -/
def Clean (e : Engine) : Prop := e.flags &&& ~~~(Interrupt.received ||| Interrupt.sendOk) = 0

theorem Clean.reserved {e : Engine} (h : e.Clean) : e.flags &&& Interrupt.reserved = 0 := by
  have within : Interrupt.reserved = ~~~(Interrupt.received ||| Interrupt.sendOk) &&& Interrupt.reserved := by decide
  rw [within, ← UInt8.and_assoc, h, UInt8.zero_and]

/-- **Step.** In every step of a socket the flags that the event takes down go down, those that it raises
go up, and all others stay. -/
theorem step_flagged {e : Engine} (staged : e.Staged) (unreached : e.Unreached) (clean : e.Clean) (event : Event)
    (net : ν) (noLoad : event.isLoad = false) : Flagged e net event := by
  have silent : none ≠ some Command.send := (Option.some_ne_none _).symm
  cases event with
  | write cfg cell value =>
    by_cases command : cell = Cell.command
    · subst command
      exact flagged_of_code staged unreached rfl rfl rfl rfl rfl
    have noSend : (Event.write cfg cell value).command? ≠ some .send := by
      rw [Event.command?, if_neg command]
      exact silent
    by_cases interrupt : cell = Cell.interrupt
    · subst interrupt
      exact flagged_of_acknowledge unreached clean.reserved cfg value
    refine flagged_of_calm unreached noSend (if_neg interrupt) ?_
    have apart := apart_store e cell value
    rw [arriving, if_neg command, arrival_none, step, writeRegister, if_neg command]
    have kept : (e.store cell value).flags = e.flags := (flags_store e cell value).trans (if_neg interrupt)
    exact ⟨kept.trans UInt8.or_zero.symm, apart.txRead, .inr apart.sendEnd⟩
  | command cfg code => exact flagged_of_code staged unreached rfl rfl rfl rfl rfl
  | storeTx o value | storeRx o value =>
    exact flagged_of_calm unreached silent rfl ((arrival_none e).symm ▸ ⟨UInt8.or_zero.symm, rfl, .inr rfl⟩)
  | deliver data => exact flagged_of_calm unreached silent rfl (calm_deliver e data)
  | poll => exact flagged_of_poll net unreached
  | reset =>
    have completes : ¬ e.CompletesSend net .reset := by
      unfold CompletesSend
      split
      · rintro ⟨⟩
      · exact fun done => Bool.noConfusion done.1
      · exact id
    refine ⟨?_, unreached_of_none rfl⟩
    rw [raising_of_not completes]
    show (0 : UInt8) = (e.flags &&& 0) ||| e.arrival none
    rw [arrival_none, UInt8.and_zero, UInt8.or_zero]
  | load state => exact absurd noLoad.symm Bool.false_ne_true

theorem Flagged.clean {e : Engine} {net : ν} {event : Event} (h : Flagged e net event) (clean : e.Clean) :
    (e.step event net).1.Clean := by
  have raised : e.raising net event &&& ~~~(Interrupt.received ||| Interrupt.sendOk) = 0 := by
    unfold raising
    split <;> split <;> decide
  rw [Clean, h.flags, or_and, raised, UInt8.or_zero, UInt8.and_assoc, UInt8.and_comm (~~~_), ← UInt8.and_assoc, clean,
    UInt8.zero_and]

/-! ## Histories -/

/-- Whatever raises a flag has happened in a history, and the flag has not been taken down since. -/
def Since (e : Engine) (events : List (Event × ν)) (raises : Engine → ν → Event → Prop) (flag : UInt8) :
    Prop :=
  ∃ before event net later, events = before ++ (event, net) :: later ∧ raises (e.trace before) net event ∧
    ∀ next ∈ later, next.1.clears &&& flag = 0

section Since

variable (e : Engine) (events : List (Event × ν)) (last : Event × ν)
  (raises : Engine → ν → Event → Prop) (flag : UInt8)

theorem since_nil : ¬ e.Since [] raises flag := by
  rintro ⟨before, event, net, later, split, -⟩
  exact absurd split.symm (List.append_ne_nil_of_right_ne_nil before (List.cons_ne_nil _ _))

theorem since_append :
    e.Since (events ++ [last]) raises flag ↔
      raises (e.trace events) last.2 last.1 ∨ (last.1.clears &&& flag = 0 ∧ e.Since events raises flag) := by
  constructor
  · rintro ⟨before, event, net, later, split, raised, kept⟩
    rcases List.eq_nil_or_concat later with rfl | ⟨later, next, rfl⟩
    · obtain ⟨rfl, ⟨⟩⟩ := List.append_inj' split rfl
      exact .inl raised
    · rw [List.concat_eq_append] at split kept
      have split : events ++ [last] = (before ++ (event, net) :: later) ++ [next] := by simpa using split
      obtain ⟨rfl, ⟨⟩⟩ := List.append_inj' split rfl
      exact .inr ⟨kept _ (by simp), before, event, net, later, rfl, raised,
        fun next mem => kept next (by simp [mem])⟩
  · rintro (raised | ⟨kept, before, event, net, later, rfl, raised, still⟩)
    · exact ⟨events, last.1, last.2, [], rfl, raised, nofun⟩
    · refine ⟨before, event, net, later ++ [last], by simp, raised, fun next mem => ?_⟩
      rcases List.mem_append.mp mem with mem | mem
      · exact still next mem
      · rw [List.mem_singleton.mp mem]
        exact kept

end Since

/-- A single bit is there or not. -/
theorem and_single {flag : UInt8} {k : Nat} (single : flag.toNat = 2 ^ k) (x : UInt8) :
    x &&& flag = 0 ∨ x &&& flag = flag := by
  rw [← UInt8.toNat_inj, ← UInt8.toNat_inj, UInt8.toNat_and, single, Nat.and_two_pow]
  cases x.toNat.testBit k
  · exact .inl (Nat.zero_mul _)
  · exact .inr (Nat.one_mul _)

/-- What becomes of one flag does not depend on the others. -/
theorem and_not_and_single {flag : UInt8} {k : Nat} (single : flag.toNat = 2 ^ k) (up down : UInt8) :
    (up &&& ~~~down) &&& flag ≠ 0 ↔ down &&& flag = 0 ∧ up &&& flag ≠ 0 := by
  rw [UInt8.and_assoc]
  rcases and_single single down with apart | inside
  · have kept : ~~~down &&& flag = flag := by
      have spread := or_and down (~~~down) flag
      rw [UInt8.or_not_self, UInt8.neg_one_and, apart, UInt8.zero_or] at spread
      exact spread.symm
    rw [kept]
    exact ⟨fun raised => ⟨apart, raised⟩, fun raised => raised.2⟩
  · have lost : ~~~down &&& flag = 0 := by
      rw [← inside, ← UInt8.and_assoc, UInt8.not_and_self, UInt8.zero_and]
    have some : flag ≠ 0 := by
      rintro rfl
      exact absurd single.symm (Nat.pos_iff_ne_zero.mp (Nat.two_pow_pos k))
    rw [lost, UInt8.and_zero, inside]
    exact ⟨fun raised => absurd rfl raised, fun raised => absurd raised.1 some⟩

theorem or_and_ne_zero (a b flag : UInt8) : (a ||| b) &&& flag ≠ 0 ↔ a &&& flag ≠ 0 ∨ b &&& flag ≠ 0 := by
  rw [or_and, Ne, UInt8.or_eq_zero_iff, not_and_or]

theorem raising_received (e : Engine) (net : ν) (event : Event) :
    e.raising net event &&& Interrupt.received ≠ 0 ↔ e.Accepts net event := by
  unfold raising
  by_cases accepts : e.Accepts net event <;> by_cases completes : e.CompletesSend net event <;>
    simp only [accepts, completes, if_true, if_false] <;> decide

theorem raising_sendOk (e : Engine) (net : ν) (event : Event) :
    e.raising net event &&& Interrupt.sendOk ≠ 0 ↔ e.CompletesSend net event := by
  unfold raising
  by_cases accepts : e.Accepts net event <;> by_cases completes : e.CompletesSend net event <;>
    simp only [accepts, completes, if_true, if_false] <;> decide

/-- **Run.** A flag that every step raises on its occasion, and on no other, tells whether the occasion has
come since the flag was last taken down. -/
theorem flag_since {e : Engine} {raises : Engine → ν → Event → Prop} {flag : UInt8} {k : Nat}
    (single : flag.toNat = 2 ^ k) (down : e.flags &&& flag = 0) (events : List (Event × ν))
    (flagged : ∀ before event net later, events = before ++ (event, net) :: later →
      Flagged (e.trace before) net event ∧
        ((e.trace before).raising net event &&& flag ≠ 0 ↔ raises (e.trace before) net event)) :
    (e.trace events).flags &&& flag ≠ 0 ↔ e.Since events raises flag := by
  induction events using List.reverseRecOn with
  | nil => exact ⟨fun up => absurd down up, fun since => absurd since (since_nil e raises flag)⟩
  | append_singleton events last ih =>
    obtain ⟨step, raised⟩ := flagged events last.1 last.2 [] rfl
    have ih := ih fun before event net later split => by
      rw [split] at flagged
      exact flagged before event net (later ++ [last]) (by simp)
    rw [since_append, ← ih, trace_append, trace_cons, trace_nil, step.flags, or_and_ne_zero,
      and_not_and_single single, raised, or_comm]

/-- What holds of the flags and of a SEND under way at every point of a history. -/
structure Latched (e : Engine) : Prop where
  staged : e.Staged
  unreached : e.Unreached
  clean : e.Clean

theorem latched_trace (events : List (Event × ν)) (noLoad : ∀ event ∈ events, event.1.isLoad = false) :
    Latched (powerOn.trace events) := by
  induction events using List.reverseRecOn with
  | nil =>
    have clean : powerOn.Clean := by
      unfold Clean
      decide
    exact ⟨staged_powerOn, unreached_of_none rfl, clean⟩
  | append_singleton events last ih =>
    obtain ⟨staged, unreached, clean⟩ := ih fun event mem => noLoad event (List.mem_append_left _ mem)
    have flagged := step_flagged staged unreached clean last.1 last.2 (noLoad last (by simp))
    have step : powerOn.trace (events ++ [last]) = ((powerOn.trace events).step last.1 last.2).1 := trace_append ..
    refine ⟨staged_trace _, ?_, ?_⟩ <;> rw [step]
    · exact flagged.unreached
    · exact flagged.clean clean

/-- **The interrupt register is a faithful latch.** In every history without loading, with any host: the
flag for received data is up iff bytes have been taken in since the last reset and the last time that a
one was written to it; the flag for a completed SEND is up iff a SEND has been completed since then; and
no other flag is up. An event that takes nothing in, completes no SEND and is neither a reset nor such a
write leaves all flags as they are, whatever else it does; so do all commands but SEND, and bytes that
are dropped. -/
theorem interrupt_latches (events : List (Event × ν)) (noLoad : ∀ event ∈ events, event.1.isLoad = false) :
    let e := powerOn.trace events
    let ir := e.regs.get Cell.interrupt
    (ir &&& 0x04 ≠ 0 ↔ powerOn.Since events Accepts 0x04) ∧
    (ir &&& 0x10 ≠ 0 ↔ powerOn.Since events CompletesSend 0x10) ∧
    ir &&& ~~~(0x04 ||| 0x10) = 0 ∧
    ∀ (event : Event) (net : ν), event.isLoad = false →
      let ir' := (e.step event net).1.regs.get Cell.interrupt
      (event.clears = 0 → ¬ e.Accepts net event → ¬ e.CompletesSend net event → ir' = ir) ∧
      (∀ command, event.command? = some command → command ≠ .send → ir' = ir) ∧
      (∀ data, event = .deliver data → e.rxRoom < data.length → ir' = ir) := by
  intro e ir
  have latched : Latched e := latched_trace events noLoad
  have flagged (before : List (Event × ν)) (event : Event) (net : ν) (later : List (Event × ν))
      (split : events = before ++ (event, net) :: later) : Flagged (powerOn.trace before) net event := by
    have latched := latched_trace before fun next mem => noLoad next (split ▸ List.mem_append_left _ mem)
    have kind : event.isLoad = false := noLoad (event, net) (split ▸ by simp)
    exact step_flagged latched.staged latched.unreached latched.clean event net kind
  refine ⟨?_, ?_, latched.clean, fun event net kind => ⟨fun clears refused completes => ?_, ?_, ?_⟩⟩
  · exact flag_since (k := 2) rfl rfl events fun before event net later split =>
      ⟨flagged before event net later split, raising_received _ net event⟩
  · exact flag_since (k := 4) rfl rfl events fun before event net later split =>
      ⟨flagged before event net later split, raising_sendOk _ net event⟩
  · have step := (step_flagged latched.staged latched.unreached latched.clean event net kind).flags
    rw [clears, keep_flags, raising, if_neg refused, if_neg completes, UInt8.or_zero, UInt8.or_zero] at step
    exact step
  · exact fun command gives noSend => (nothing_of_command latched.unreached gives noSend net).2.2.1
  · rintro data rfl large
    have kept : e.deliver data = e := by rw [deliver_eq, if_neg (Nat.not_le.mpr large)]
    exact congrArg flags kept

/-- A SEND that the host takes in two parts, data that is taken in and acknowledged, and a SEND that fails. -/
def noisySocket : List (Event × Network) :=
  connectedSocket ++ slowSend ++ [(.deliver [1], {}), (.write {} Cell.interrupt 0x04, {}), lostSend]

theorem interrupt_latches_noisySocket :
    (powerOn.trace noisySocket).regs.get Cell.interrupt = 0x10 ∧ (powerOn.trace noisySocket).status = .closed ∧
      ¬ powerOn.Since noisySocket Accepts 0x04 ∧ powerOn.Since noisySocket CompletesSend 0x10 := by
  have up : (powerOn.trace noisySocket).regs.get Cell.interrupt = 0x10 := by decide +kernel
  obtain ⟨received, sent, -⟩ := interrupt_latches noisySocket (by decide)
  rw [up] at received sent
  exact ⟨up, by decide +kernel, fun since => received.mpr since (by decide), sent.mp (by decide)⟩

end EtherChip.Engine

import EtherChip.Proofs.Socket.Bank
import EtherChip.Proofs.Socket.Change

/-!
# The receive side of a socket

`Intake` is what concerns receiving: the receive ring, its write position, and the two words that
the firmware sees of it. Quiet changes keep it, and what arrives changes it as `Intake.deliver` says,
so a poll or a command acts on it through the bytes that arrive and nothing else.

The received size is counted from the firmware's read position, but only now and then: when the
socket is opened again, when bytes are taken in, at RECV and at reset (`Recounts`). Every other event
leaves the size and the write position as they are.
-/
namespace EtherChip

/-- What concerns receiving. -/
structure Intake where
  ring : Ring
  write : RingOffset
  /-- Word in which the firmware keeps its read position. -/
  read : UInt16
  /-- Word that shows how many bytes are unread. -/
  shown : UInt16

namespace Intake

/-- Bytes that the firmware has not read. -/
def unread (i : Intake) : Nat := RingOffset.distance (RingOffset.ofWord i.read) i.write

/-- Bytes that can be taken without running over unread ones. -/
def room (i : Intake) : Nat := ringSize - 1 - i.unread

/-- Bytes have been appended. -/
def append (i : Intake) (data : Bytes) : Intake :=
  let i := { i with ring := (i.ring.copyIn i.write data).1, write := (i.ring.copyIn i.write data).2 }
  { i with shown := UInt16.ofNat i.unread }

/-- Bytes have been appended, or dropped because they do not fit. -/
def deliver (i : Intake) (data : Bytes) : Intake := if data.length ≤ i.room then i.append data else i

/-- What arrives has been delivered. -/
def absorb (i : Intake) : (arrived : Option Bytes) → Intake
  | none => i
  | some data => i.deliver data

/-- The size that is shown is the number of unread bytes. -/
def Counted (i : Intake) : Prop := i.shown = UInt16.ofNat i.unread

theorem deliver_of_fits {i : Intake} {data : Bytes} (h : data.length ≤ i.room) :
    i.deliver data = i.append data := if_pos h

end Intake

namespace Engine

/-- The receive side of a socket. -/
def intake (e : Engine) : Intake :=
  { ring := e.rx, write := e.rxWrite, read := e.regs.word Cell.rxRead, shown := e.regs.word Cell.rxReceived }

theorem unread_intake (e : Engine) : e.intake.unread = e.unread := rfl

theorem room_intake (e : Engine) : e.intake.room = e.rxRoom := rfl

/-! ## Which changes keep the receive side -/

/-- Registers other than the two words of the receive side are free. -/
theorem intake_of_regs (e : Engine) {regs : RegisterBank}
    (read : regs.word Cell.rxRead = e.regs.word Cell.rxRead)
    (shown : regs.word Cell.rxReceived = e.regs.word Cell.rxReceived) :
    intake { e with regs := regs } = e.intake := by
  unfold intake
  rw [read, shown]

@[simp] theorem intake_enter (e : Engine) (status : Status) : (e.enter status).intake = e.intake :=
  intake_of_regs e (RegisterBank.word_set_of_apart _ _ (by decide) (by decide))
    (RegisterBank.word_set_of_apart _ _ (by decide) (by decide))

@[simp] theorem intake_raise (e : Engine) (flag : UInt8) : (e.raise flag).intake = e.intake :=
  intake_of_regs e (RegisterBank.word_set_of_apart _ _ (by decide) (by decide))
    (RegisterBank.word_set_of_apart _ _ (by decide) (by decide))

@[simp] theorem intake_showFree (e : Engine) : e.showFree.intake = e.intake :=
  intake_of_regs e (RegisterBank.word_setWord_of_apart _ _ (by decide))
    (RegisterBank.word_setWord_of_apart _ _ (by decide))

@[simp] theorem intake_showSent (e : Engine) (position : RingOffset) :
    (e.showSent position).intake = e.intake := by
  rw [showSent, intake_showFree]
  exact intake_of_regs e (RegisterBank.word_setWord_of_apart _ _ (by decide))
    (RegisterBank.word_setWord_of_apart _ _ (by decide))

@[simp] theorem intake_completeSend (e : Engine) (position : RingOffset) :
    (e.completeSend position).intake = e.intake :=
  (intake_raise _ _).trans (intake_showSent e position)

theorem Quiet.intake {e e' : Engine} (change : Quiet e e') : e'.intake = e.intake := by
  cases change with
  | storedTx | connecting | renewed | captured => rfl
  | listening | connected | released => exact intake_enter _ _
  | accepted id peer =>
    rw [intake_enter]
    refine intake_of_regs { e with host := .stream id } ?_ ?_ <;>
      rw [RegisterBank.showPeer, RegisterBank.word_setWord_of_apart _ _ (by decide),
        RegisterBank.word_setDestAddr _ _ (by decide)]
  | advanced position => exact intake_showSent e position
  | flushed position => exact intake_completeSend _ _
  | dispatched position => exact intake_completeSend _ _

theorem Quiets.intake {e e' : Engine} (chain : Quiets e e') : e'.intake = e.intake := by
  induction chain with
  | refl => rfl
  | tail _ change ih => exact change.intake.trans ih

/-! ## Taking bytes in -/

theorem intake_showReceived (e : Engine) :
    e.showReceived.intake = { e.intake with shown := UInt16.ofNat e.unread } := by
  unfold intake showReceived
  dsimp only
  rw [RegisterBank.word_setWord_self _ _ (by decide), RegisterBank.word_setWord_of_apart _ _ (by decide)]

theorem intake_appended (e : Engine) (data : Bytes) : (e.appended data).intake = e.intake.append data := by
  rw [appended, intake_raise, intake_showReceived]
  rfl

theorem intake_deliver (e : Engine) (data : Bytes) : (e.deliver data).intake = e.intake.deliver data := by
  rw [deliver_eq, Intake.deliver, room_intake]
  split
  · exact intake_appended e data
  · rfl

theorem Absorbs.intake {e e' : Engine} {arrived : Option Bytes} (h : Absorbs e arrived e') :
    e'.intake = e.intake.absorb arrived := by
  cases arrived with
  | none => exact Quiets.intake h
  | some data =>
    obtain ⟨mid, before, after⟩ := h
    rw [after.intake, intake_deliver, before.intake]
    rfl

variable {ν : Type} [NetHost ν]

/-- **A poll concerns receiving through the bytes that it takes from the host only.** -/
theorem intake_poll (e : Engine) (net : ν) : (e.poll net).1.intake = e.intake.absorb (e.polled? net) :=
  (poll_absorbs e net).intake

/-! ## When the received size is counted -/

/-- Bytes arrive and fit. -/
def Accepts (e : Engine) (net : ν) (event : Event) : Prop :=
  ∃ data ∈ e.arriving net event, data.length ≤ e.rxRoom

/-- The received size is counted anew: the socket is opened again, whether the host gives it a
socket or not, bytes are taken in, RECV is given to a socket that can receive, or it is reset. -/
def Recounts (e : Engine) (net : ν) (event : Event) : Prop :=
  e.Reopens event.command? ∨ e.Acknowledges event.command? ∨ e.Accepts net event ∨ event.isReset

instance (e : Engine) (net : ν) (event : Event) : Decidable (e.Accepts net event) :=
  inferInstanceAs (Decidable (∃ data ∈ e.arriving net event, _))

instance (e : Engine) (net : ν) (event : Event) : Decidable (e.Recounts net event) :=
  inferInstanceAs (Decidable (_ ∨ _))

/-- Opening leaves both rings empty. -/
theorem Reopened.intake {e e' : Engine} (reopened : Reopened e e') : e'.intake = ⟨e.rx, 0, 0, 0⟩ := by
  have emptied : e.emptied.intake = ⟨e.rx, 0, 0, 0⟩ := by
    unfold Engine.intake Engine.emptied resetPointers
    simp (disch := decide) only [RegisterBank.word_setWord_of_apart, RegisterBank.word_setWord_self]
    rfl
  cases reopened with
  | failed => exact emptied
  | stream id => exact (intake_enter _ _).trans emptied
  | datagram id => exact (intake_enter _ _).trans emptied

/-- What an event that gives a command does is what the command does. -/
theorem step_of_command {event : Event} {command : Command} (h : event.command? = some command) :
    ∃ cfg code, Command.ofCode? code = some command ∧ ∀ (e : Engine) (net : ν),
      e.step event net = e.command cfg code net ∧
      e.arriving net event = e.replied? cfg (some command) net := by
  cases event with
  | write cfg cell code =>
    dsimp only [Event.command?] at h
    split at h
    · refine ⟨cfg, code, h, fun e net => ⟨?_, ?_⟩⟩
      · rw [step, writeRegister, if_pos ‹_›]
      · rw [arriving, if_pos ‹_›, h]
    · exact nomatch h
  | command cfg code =>
    dsimp only [Event.command?] at h
    exact ⟨cfg, code, h, fun e net => ⟨rfl, by rw [arriving, h]⟩⟩
  | _ => exact nomatch h

/-- An event that opens nothing, acknowledges nothing and is no write to the receive side concerns
receiving through what arrives only. -/
theorem step_absorbs (e : Engine) (event : Event) (net : ν) {data : Bytes}
    (opens : ¬ e.Reopens event.command?) (acknowledges : ¬ e.Acknowledges event.command?)
    (arrives : e.arriving net event = some data) : Absorbs e (some data) (e.step event net).1 := by
  cases event with
  | write cfg cell code =>
    dsimp only [arriving, Event.command?, step, writeRegister] at *
    split at arrives
    · rename_i command
      rw [if_pos command] at *
      exact arrives ▸ command_absorbs e cfg code net opens acknowledges
    · exact nomatch arrives
  | command cfg code => exact arrives ▸ command_absorbs e cfg code net opens acknowledges
  | deliver bytes =>
    obtain rfl : bytes = data := Option.some.inj arrives
    exact absorbs_deliver e bytes
  | poll => exact arrives ▸ poll_absorbs e net
  | _ => exact nomatch arrives

/-- **When it is counted, the received size is the number of unread bytes.** -/
theorem counted_of_recounts (e : Engine) (event : Event) (net : ν) (h : e.Recounts net event) :
    (e.step event net).1.intake.Counted := by
  by_cases opens : e.Reopens event.command?
  · obtain ⟨cfg, code, ofCode, same⟩ := step_of_command (ν := ν) opens.1
    rw [(same e net).1, (command_reopened e cfg code (ofCode ▸ opens.1 ▸ opens) net).intake]
    show (0 : UInt16) = UInt16.ofNat (RingOffset.distance (RingOffset.ofWord 0) 0)
    decide
  by_cases acknowledges : e.Acknowledges event.command?
  · obtain ⟨cfg, code, ofCode, same⟩ := step_of_command (ν := ν) acknowledges.1
    rw [(same e net).1, command_acknowledged e cfg code (ofCode ▸ acknowledges.1 ▸ acknowledges) net,
      intake_showReceived]
    exact congrArg UInt16.ofNat (unread_intake e).symm
  rcases h with h | h | ⟨data, arrives, fits⟩ | h
  · exact absurd h opens
  · exact absurd h acknowledges
  · rw [(step_absorbs e event net opens acknowledges arrives).intake, Intake.absorb,
      Intake.deliver_of_fits (room_intake e ▸ fits)]
    rfl
  · cases event with
    | reset =>
      show powerOn.intake.shown = UInt16.ofNat powerOn.intake.unread
      decide
    | _ => exact nomatch h

theorem Quiet.status_closed {e e' : Engine} (change : Quiet e e') (h : e.status = .closed) :
    e'.status = .closed := by
  cases change with
  | storedTx => exact h
  | released => rfl
  | connecting _ _ status | listening _ status | renewed _ status | connected _ status
  | accepted _ _ status | captured status | advanced _ status | flushed _ status
  | dispatched _ status => exact absurd (h.symm.trans status) (by decide)

/-- The size and the write position that a socket keeps while nothing is counted; a closed one stays
closed. -/
def Keeps (e e' : Engine) : Prop :=
  e'.intake.shown = e.intake.shown ∧ e'.rxWrite = e.rxWrite ∧ (e.status = .closed → e'.status = .closed)

theorem Quiets.keeps {e e' : Engine} (chain : Quiets e e') : Keeps e e' := by
  refine ⟨by rw [chain.intake], congrArg Intake.write chain.intake, fun closed => ?_⟩
  induction chain with
  | refl => exact closed
  | tail _ change ih => exact change.status_closed ih

theorem Absorbs.keeps {e e' : Engine} {arrived : Option Bytes} (h : Absorbs e arrived e')
    (refused : ∀ data ∈ arrived, ¬ data.length ≤ e.rxRoom) : Keeps e e' := by
  cases arrived with
  | none => exact Quiets.keeps h
  | some data =>
    obtain ⟨mid, before, after⟩ := h
    have refused : ¬ data.length ≤ mid.rxRoom := by
      rw [← room_intake, before.intake, room_intake]
      exact refused data rfl
    rw [deliver_eq, if_neg refused] at after
    exact Quiets.keeps (before.trans after)

theorem keeps_store (e : Engine) (cell : Nat) (value : UInt8) : Keeps e (e.store cell value) := by
  have shown {other : Nat} (free : readOnly other = false) (value : UInt8) :
      (e.regs.set other value).word Cell.rxReceived = e.regs.word Cell.rxReceived := by
    refine RegisterBank.word_set_of_apart _ _ ?_ ?_ <;> rintro rfl <;> exact absurd free (by decide)
  unfold store
  split
  · exact ⟨shown (by decide) _, rfl, id⟩
  split
  · exact ⟨rfl, rfl, id⟩
  rename_i free
  split
  · refine ⟨?_, rfl, id⟩
    rw [intake_showFree]
    exact shown (by decide) _
  split
  · refine ⟨?_, rfl, id⟩
    rw [intake_showFree]
    exact shown (by decide) _
  split
  · exact ⟨shown (by decide) _, rfl, id⟩
  · exact ⟨shown (by simpa using free) _, rfl, id⟩

/-- **While nothing is counted, the received size and the write position stay.** -/
theorem step_keeps (e : Engine) (event : Event) (net : ν) (h : ¬ e.Recounts net event)
    (noLoad : event.isLoad = false) : Keeps e (e.step event net).1 := by
  obtain ⟨opens, acknowledges, refused, noReset⟩ :
      ¬ e.Reopens event.command? ∧ ¬ e.Acknowledges event.command? ∧
      (∀ data ∈ e.arriving net event, ¬ data.length ≤ e.rxRoom) ∧ ¬ event.isReset := by
    simpa only [Recounts, Accepts, not_or, not_exists, not_and] using h
  cases event with
  | write cfg cell code =>
    dsimp only [arriving, Event.command?, step, writeRegister] at *
    split
    · rename_i command
      rw [if_pos command] at opens acknowledges
      rw [if_pos command] at refused
      exact (command_absorbs e cfg code net opens acknowledges).keeps refused
    · exact keeps_store e cell code
  | command cfg code => exact (command_absorbs e cfg code net opens acknowledges).keeps refused
  | storeTx o value => exact ⟨rfl, rfl, id⟩
  | storeRx o value => exact ⟨rfl, rfl, id⟩
  | deliver data => exact (absorbs_deliver e data).keeps refused
  | poll => exact (poll_absorbs e net).keeps refused
  | reset => exact absurd rfl noReset
  | load state => exact absurd noLoad.symm Bool.false_ne_true

end Engine

end EtherChip

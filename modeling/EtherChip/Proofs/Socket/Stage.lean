import EtherChip.Proofs.Socket.Bank
import EtherChip.Proofs.Socket.Change

/-!
# Status, protocol and host socket in step

A socket says its status three times: in the `status` itself, in the status cell that the firmware
reads, and by the stage of the host socket that it holds. `Staged` ties them together, with the
protocol and the pending SEND. Every kind of change keeps it (`Change.staged`), so it holds after
every history: also after a refused connection, a failed replacement for its socket, or a send error
in the middle of a poll.
-/
namespace EtherChip.Engine

/-- Host socket and protocol that belong to a status. -/
def Backed : Status → HostSocket → Option Protocol → Prop
  | .closed, host, protocol => host = .none ∧ protocol = none
  | .init, host, protocol =>
    ((∃ id, host = .tcp id) ∨ ∃ id dest, host = .connecting id dest) ∧ protocol = some .tcp
  | .listen, host, protocol => (∃ id, host = .listener id) ∧ protocol = some .tcp
  | .established, host, protocol => (∃ id, host = .stream id) ∧ protocol = some .tcp
  | .udpReady, host, protocol => (∃ id, host = .datagram id) ∧ protocol = some .udp

/-- Status, status cell, host socket, protocol and pending SEND agree. -/
structure Staged (e : Engine) : Prop where
  shown : e.regs.get Cell.status = e.status.code
  backed : Backed e.status e.host e.protocol
  sending : e.sendEnd ≠ none → e.status = .established

/-! ## One lemma for each part that a change can touch -/

/-- Registers other than the status cell are free. -/
theorem Staged.of_regs {e : Engine} (h : Staged e) {regs : RegisterBank}
    (same : regs.get Cell.status = e.regs.get Cell.status) : Staged { e with regs := regs } :=
  ⟨same.trans h.shown, h.backed, h.sending⟩

/-- A status is entered with the host socket that belongs to it. -/
theorem Staged.of_enter {e : Engine} {status : Status} (backed : Backed status e.host e.protocol)
    (sending : e.sendEnd ≠ none → status = .established) : Staged (e.enter status) :=
  ⟨RegisterBank.get_set_self _ _ (by decide), backed, sending⟩

theorem Staged.sendEnd_eq_none {e : Engine} (h : Staged e) (live : e.status ≠ .established) :
    e.sendEnd = none :=
  Classical.byContradiction fun pending => live (h.sending pending)

theorem Staged.stream {e : Engine} (h : Staged e) (status : e.status = .established) :
    ∃ id, e.host = .stream id := by
  have backed := h.backed
  rw [status] at backed
  exact backed.1

theorem Staged.datagram {e : Engine} (h : Staged e) (status : e.status = .udpReady) :
    ∃ id, e.host = .datagram id := by
  have backed := h.backed
  rw [status] at backed
  exact backed.1

theorem Staged.raise {e : Engine} (h : Staged e) (flag : UInt8) : Staged (e.raise flag) :=
  h.of_regs (RegisterBank.get_set_of_ne _ _ (by decide))

theorem Staged.showFree {e : Engine} (h : Staged e) : Staged e.showFree :=
  h.of_regs (RegisterBank.get_setWord_of_ne _ _ (by decide) (by decide))

theorem Staged.showReceived {e : Engine} (h : Staged e) : Staged e.showReceived :=
  h.of_regs (RegisterBank.get_setWord_of_ne _ _ (by decide) (by decide))

theorem Staged.showSent {e : Engine} (h : Staged e) (position : RingOffset) :
    Staged (e.showSent position) :=
  (h.of_regs (RegisterBank.get_setWord_of_ne _ _ (by decide) (by decide))).showFree

theorem Staged.completeSend {e : Engine} (h : Staged e) (position : RingOffset) :
    Staged (e.completeSend position) :=
  (h.showSent position).raise _

theorem Staged.store {e : Engine} (h : Staged e) (cell : Nat) (value : UInt8) :
    Staged (e.store cell value) := by
  unfold Engine.store
  split
  · exact h.of_regs (RegisterBank.get_set_of_ne _ _ (by decide))
  split
  · exact h
  rename_i readable
  split
  · exact (h.of_regs (RegisterBank.get_set_of_ne _ _ (by decide))).showFree
  split
  · exact (h.of_regs (RegisterBank.get_set_of_ne _ _ (by decide))).showFree
  split
  · exact h.of_regs (RegisterBank.get_set_of_ne _ _ (by decide))
  · refine h.of_regs (RegisterBank.get_set_of_ne _ _ ?_)
    rintro rfl
    exact readable rfl

theorem Staged.appended {e : Engine} (h : Staged e) (data : Bytes) : Staged (e.appended data) := by
  have copied : Staged { e with rx := (e.rx.copyIn e.rxWrite data).1
                                rxWrite := (e.rx.copyIn e.rxWrite data).2 } :=
    ⟨h.shown, h.backed, h.sending⟩
  exact copied.showReceived.raise _

theorem staged_closed (e : Engine) : Staged e.closed :=
  .of_enter ⟨rfl, rfl⟩ fun pending => absurd rfl pending

theorem Staged.emptied {e : Engine} (h : Staged e) (closed : e.status = .closed) : Staged e.emptied := by
  obtain ⟨shown, backed, -⟩ := h
  rw [closed] at backed
  refine ⟨?_, ?_, fun pending => absurd rfl pending⟩ <;> dsimp only [Engine.emptied, resetPointers]
  · simp (disch := decide) only [RegisterBank.get_setWord_of_ne, shown]
  · rw [closed]
    exact ⟨rfl, backed.2⟩

theorem staged_powerOn : Staged powerOn := ⟨rfl, ⟨rfl, rfl⟩, fun pending => absurd rfl pending⟩

theorem staged_ofState (state : SocketState) : Staged (ofState state) :=
  ⟨RegisterBank.get_set_self _ _ (by decide), ⟨rfl, rfl⟩, fun pending => absurd rfl pending⟩

/-! ## Every change, every history -/

theorem Quiet.staged {e e' : Engine} (change : Quiet e e') (h : Staged e) : Staged e' := by
  have backed := h.backed
  cases change with
  | storedTx o value => exact ⟨h.shown, h.backed, h.sending⟩
  | connecting id dest init =>
    rw [init] at backed
    exact ⟨h.shown, by dsimp only; rw [init]; exact ⟨.inr ⟨id, dest, rfl⟩, backed.2⟩, h.sending⟩
  | listening id init =>
    rw [init] at backed
    refine .of_enter ⟨⟨id, rfl⟩, backed.2⟩ fun pending => absurd (h.sendEnd_eq_none ?_) pending
    rw [init]; decide
  | renewed id init =>
    rw [init] at backed
    exact ⟨h.shown, by dsimp only; rw [init]; exact ⟨.inl ⟨id, rfl⟩, backed.2⟩, h.sending⟩
  | connected id init =>
    rw [init] at backed
    exact .of_enter ⟨⟨id, rfl⟩, backed.2⟩ fun _ => rfl
  | accepted id peer listen =>
    rw [listen] at backed
    exact .of_enter ⟨⟨id, rfl⟩, backed.2⟩ fun _ => rfl
  | captured established => exact ⟨h.shown, h.backed, fun _ => established⟩
  | advanced position => exact h.showSent position
  | flushed position =>
    exact Staged.completeSend (e := { e with sendEnd := none })
      ⟨h.shown, h.backed, fun pending => absurd rfl pending⟩ position
  | dispatched position => exact h.completeSend position
  | released => exact staged_closed e

theorem Reopened.staged {e e' : Engine} (reopened : Reopened e e') (h : Staged e)
    (closed : e.status = .closed) : Staged e' := by
  cases reopened with
  | failed => exact h.emptied closed
  | stream id => exact .of_enter ⟨.inl ⟨id, rfl⟩, rfl⟩ fun pending => absurd rfl pending
  | datagram id => exact .of_enter ⟨⟨id, rfl⟩, rfl⟩ fun pending => absurd rfl pending

/-- **Step.** Every kind of change keeps status, protocol and host socket in step. -/
theorem Change.staged {e e' : Engine} (change : Change e e') (h : Staged e) : Staged e' := by
  cases change with
  | quiet change => exact change.staged h
  | stored cell value => exact h.store cell value
  | storedRx o value => exact ⟨h.shown, h.backed, h.sending⟩
  | delivered data _ => exact h.appended data
  | acknowledged => exact h.showReceived
  | reopened closed reopened => exact reopened.staged h closed
  | restored => exact staged_powerOn

variable {ν : Type} [NetHost ν]

theorem staged_trace (events : List (Event × ν)) : Staged (powerOn.trace events) :=
  Change.trace_keeps Change.staged staged_powerOn events fun _ _ _ state => staged_ofState state

theorem Reachable.staged {e : Engine} (h : Reachable e) : Staged e := by
  obtain ⟨_, _, events, rfl⟩ := h
  exact staged_trace events

/-- **Representation invariant.** After every history, whatever the host answers: the status cell
shows the status; a socket is closed iff it has no host socket and iff it has no protocol; the host
socket has the stage that the status asks for; the protocol follows the status, not the mode cell;
and only an established stream has a SEND pending. -/
theorem status_protocol_host_agree (events : List (Event × ν)) :
    let e := powerOn.trace events
    e.regs.get Cell.status = e.status.code ∧
    (e.status = .closed ↔ e.host = .none) ∧
    (e.host = .none ↔ e.protocol = none) ∧
    (e.status = .init → (∃ id, e.host = .tcp id) ∨ ∃ id dest, e.host = .connecting id dest) ∧
    (e.status = .listen → ∃ id, e.host = .listener id) ∧
    (e.status = .established → ∃ id, e.host = .stream id) ∧
    (e.status = .udpReady → ∃ id, e.host = .datagram id) ∧
    (e.protocol = some .tcp ↔ e.status = .init ∨ e.status = .listen ∨ e.status = .established) ∧
    (e.protocol = some .udp ↔ e.status = .udpReady) ∧
    (e.sendEnd ≠ none → e.status = .established) := by
  intro e
  have h : Staged e := staged_trace events
  have backed := h.backed
  refine ⟨h.shown, ?_⟩
  unfold Backed at backed
  cases status : e.status <;> rw [status] at backed
  case closed => simp [backed, h.sendEnd_eq_none (status ▸ by decide)]
  case init =>
    obtain ⟨⟨id, host⟩ | ⟨id, dest, host⟩, protocol⟩ := backed <;>
      simp [host, protocol, h.sendEnd_eq_none (status ▸ by decide)]
  case listen =>
    obtain ⟨⟨id, host⟩, protocol⟩ := backed
    simp [host, protocol, h.sendEnd_eq_none (status ▸ by decide)]
  case established =>
    obtain ⟨⟨id, host⟩, protocol⟩ := backed
    simp [host, protocol]
  case udpReady =>
    obtain ⟨⟨id, host⟩, protocol⟩ := backed
    simp [host, protocol, h.sendEnd_eq_none (status ▸ by decide)]

end EtherChip.Engine

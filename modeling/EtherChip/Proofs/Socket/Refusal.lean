import EtherChip.Proofs.Socket.Operation
import EtherChip.Proofs.Socket.Unread

/-!
# Commands that the host refuses

When the host call of OPEN, LISTEN or CONNECT fails, the socket keeps its status, its protocol and its
host socket, both rings, and every cell that holds no pointer or size. LISTEN and CONNECT change nothing
at all; OPEN has emptied the rings before it asks the host, so a socket whose pointers were not at zero
loses them, and with them its unread bytes (`refused_command`).
-/
namespace EtherChip

namespace RegisterBank

theorem set_get (r : RegisterBank) (cell : Nat) : r.set cell (r.get cell) = r := by
  unfold set get
  congr 1
  apply Vector.ext
  intro i populated
  rw [Vector.getElem_setIfInBounds populated]
  split
  · rename_i same
    subst same
    exact dif_pos populated
  · rfl

/-- Writing the word that is there changes nothing. -/
theorem setWord_of_word {r : RegisterBank} {cell : Nat} {value : UInt16} (h : r.word cell = value) :
    r.setWord cell value = r := by
  rw [← h, setWord, word, highByte_wordOf, lowByte_wordOf, set_get, set_get]

end RegisterBank

namespace Engine

open RegisterBank

variable {ν : Type} [NetHost ν]

/-- Pointers and sizes are those of empty rings that start at their first cells. -/
structure Clear (e : Engine) : Prop where
  rxReceived : e.regs.word Cell.rxReceived = 0
  rxRead : e.regs.word Cell.rxRead = 0
  txRead : e.regs.word Cell.txRead = 0
  txWrite : e.regs.word Cell.txWrite = 0
  txFree : e.regs.word Cell.txFree = UInt16.ofNat ringSize
  rxWrite : e.rxWrite = RingOffset.ofNat 0

theorem clear_emptied (e : Engine) : e.emptied.Clear := by
  refine ⟨?_, ?_, ?_, ?_, ?_, rfl⟩ <;> dsimp only [emptied, resetPointers] <;>
    simp (disch := decide) only [word_setWord_of_apart, word_setWord_self]

theorem rings_emptied (e : Engine) : e.emptied.tx = e.tx ∧ e.emptied.rx = e.rx := by
  dsimp only [emptied, resetPointers]
  exact ⟨rfl, rfl⟩

theorem owner_emptied (e : Engine) :
    e.emptied.protocol = e.protocol ∧ e.emptied.host = .none ∧ e.emptied.sendEnd = none := by
  dsimp only [emptied, resetPointers]
  exact ⟨rfl, rfl, rfl⟩

/-- Emptying changes nothing but pointers and sizes. -/
theorem get_emptied (e : Engine) {cell : Nat} (other : cell < Cell.txFree ∨ Cell.rxRead + 1 < cell) :
    e.emptied.regs.get cell = e.regs.get cell := by
  have apart {word : Nat} (lower : Cell.txFree ≤ word) (upper : word ≤ Cell.rxRead) :
      cell ≠ word ∧ cell ≠ word + 1 := by
    omega
  dsimp only [emptied, resetPointers]
  rw [get_setWord_of_ne _ _ (apart (by decide) (by decide)).1 (apart (by decide) (by decide)).2,
    get_setWord_of_ne _ _ (apart (by decide) (by decide)).1 (apart (by decide) (by decide)).2,
    get_setWord_of_ne _ _ (apart (by decide) (by decide)).1 (apart (by decide) (by decide)).2,
    get_setWord_of_ne _ _ (apart (by decide) (by decide)).1 (apart (by decide) (by decide)).2,
    get_setWord_of_ne _ _ (apart (by decide) (by decide)).1 (apart (by decide) (by decide)).2]

/-- Emptying changes a closed socket exactly if its pointers and sizes are others. -/
theorem emptied_eq_self {e : Engine} (host : e.host = .none) (sending : e.sendEnd = none) :
    e.emptied = e ↔ e.Clear := by
  refine ⟨fun same => same ▸ clear_emptied e, fun ⟨rxReceived, rxRead, txRead, txWrite, txFree, rxWrite⟩ => ?_⟩
  unfold emptied resetPointers
  dsimp only
  rw [setWord_of_word rxReceived, setWord_of_word rxRead, setWord_of_word txRead, setWord_of_word txWrite,
    setWord_of_word txFree, ← rxWrite, ← host, ← sending]

/-! ## Commands -/

/-- The host call of a command fails. -/
inductive Refuses (e : Engine) (cfg : NetConfig) (net : ν) : Command → Prop
  /-- No stream socket can be created. -/
  | stream : e.status = .closed → e.regs.get Cell.mode &&& 0x0F = 0x01 → Fails HostSocket.openTcp net →
      Refuses e cfg net .openSocket
  /-- No datagram socket can be created or bound. -/
  | datagram : e.status = .closed → e.regs.get Cell.mode &&& 0x0F = 0x02 →
      Fails (HostSocket.openUdp (e.localEndpoint cfg)) net → Refuses e cfg net .openSocket
  /-- The stream socket cannot be bound or cannot listen. -/
  | listen : e.status = .init → Fails (e.host.listen (e.localEndpoint cfg)) net → Refuses e cfg net .listen
  /-- No connection can be started. -/
  | connect : e.status = .init → Fails (e.host.connect (e.destEndpoint cfg)) net → Refuses e cfg net .connect

/-- A refused command empties the rings if it is OPEN, and does nothing else. -/
theorem command_refused {e : Engine} (staged : Staged e) {cfg : NetConfig} {net : ν} {command : Command}
    (refused : Refuses e cfg net command) :
    (e.command cfg command.code net).1 = if command = .openSocket then e.emptied else e := by
  cases refused with
  | stream status mode failed =>
    obtain ⟨why, failed⟩ := failed
    rw [Engine.command, status, Command.ofCode?_code, if_pos rfl]
    dsimp only
    rw [openSocket_stream e cfg net (staged.none status) (Protocol.ofMode?_eq_tcp.mpr mode), failed]
  | datagram status mode failed =>
    obtain ⟨why, failed⟩ := failed
    rw [Engine.command, status, Command.ofCode?_code, if_pos rfl]
    dsimp only
    rw [openSocket_datagram e cfg net (staged.none status) (Protocol.ofMode?_eq_udp.mpr mode), failed]
  | listen status failed =>
    obtain ⟨why, failed⟩ := failed
    rw [Engine.command, status, Command.ofCode?_code, if_neg (by decide)]
    dsimp only
    rw [listen_run, failed]
  | connect status failed =>
    obtain ⟨why, failed⟩ := failed
    rw [Engine.command, status, Command.ofCode?_code, if_neg (by decide)]
    dsimp only
    by_cases under : e.isConnecting
    · rw [connect_connecting cfg under]
      rfl
    · rw [connect_run e cfg net (Bool.eq_false_iff.mpr under), failed]

/-- OPEN is refused in a closed socket only. -/
theorem Refuses.closed {e : Engine} {cfg : NetConfig} {net : ν} {command : Command}
    (refused : Refuses e cfg net command) (opens : command = .openSocket) : e.status = .closed := by
  cases refused with
  | stream status | datagram status => exact status
  | listen | connect => exact nomatch opens

/-- **A refused command.** After every history from power-on: if the host call of OPEN, LISTEN or CONNECT
fails, the socket keeps status, protocol, host socket, rings and all cells but pointers and sizes. It
keeps everything exactly if the command is not OPEN or the pointers and sizes are those of empty rings
already, which is how a refused OPEN leaves them. -/
theorem refused_command (history : List (Event × ν)) (cfg : NetConfig) (command : Command) (net : ν)
    (refused : Refuses (powerOn.trace history) cfg net command) :
    let e := powerOn.trace history
    let e' := (e.command cfg command.code net).1
    e'.status = e.status ∧ e'.protocol = e.protocol ∧ e'.host = e.host ∧ e'.sendEnd = e.sendEnd ∧
    e'.tx = e.tx ∧ e'.rx = e.rx ∧
    (∀ cell, cell < Cell.txFree ∨ Cell.rxRead + 1 < cell → e'.regs.get cell = e.regs.get cell) ∧
    (command = .openSocket → e'.Clear) ∧
    (e' = e ↔ command ≠ .openSocket ∨ e.Clear) := by
  intro e e'
  have staged : Staged e := staged_trace history
  replace refused : Refuses e cfg net command := refused
  have after : e' = if command = .openSocket then e.emptied else e := command_refused staged refused
  clear_value e' e
  by_cases opens : command = .openSocket
  · have status := refused.closed opens
    have host := staged.none status
    have sending : e.sendEnd = none := staged.sendEnd_eq_none (status ▸ by decide)
    rw [after, if_pos opens]
    obtain ⟨protocol, none, done⟩ := owner_emptied e
    obtain ⟨tx, rx⟩ := rings_emptied e
    refine ⟨status_emptied e, protocol, none.trans host.symm, done.trans sending.symm, tx, rx,
      fun cell => get_emptied e, fun _ => clear_emptied e, ?_⟩
    rw [emptied_eq_self host sending]
    exact (or_iff_right (not_not_intro opens)).symm
  · rw [after, if_neg opens]
    exact ⟨rfl, rfl, rfl, rfl, rfl, rfl, fun _ _ => rfl, fun is => absurd is opens, fun _ => .inl opens, fun _ => rfl⟩

/-- A datagram socket that has taken three bytes in, which nobody has read when it is closed. -/
def closedUnread : List (Event × Network) :=
  [(.write {} Cell.mode Protocol.udp.code, {}), (.command {} Command.openSocket.code, {}), (.deliver [1, 2, 3], {}),
    (.command {} Command.close.code, {})]

theorem refused_command_unread :
    let e := powerOn.trace closedUnread
    let e' := (e.command {} Command.openSocket.code { faults := [(.bind, .error .eaddrinuse)] } : Engine × Network).1
    e'.status = .closed ∧ e.unreadBytes = [1, 2, 3] ∧ e'.Clear ∧ e' ≠ e := by
  have refused : Refuses (powerOn.trace closedUnread) {} ({ faults := [(.bind, .error .eaddrinuse)] } : Network)
      .openSocket := .datagram (by decide +kernel) (by decide +kernel) (by decide +kernel)
  obtain ⟨status, -, -, -, -, -, -, clear, same⟩ := refused_command closedUnread {} .openSocket _ refused
  have unread : (powerOn.trace closedUnread).unreadBytes = [1, 2, 3] := by decide +kernel
  have moved : ¬ (powerOn.trace closedUnread).Clear := fun clear =>
    absurd clear.rxWrite (by decide +kernel)
  refine ⟨status.trans (by decide +kernel), unread, clear rfl, fun kept => ?_⟩
  exact (same.mp kept).elim (absurd rfl) moved

end Engine

end EtherChip

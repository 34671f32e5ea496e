import EtherChip.Proofs.Bus.History
import EtherChip.Proofs.Memory.Ownership
import EtherChip.Proofs.Memory.SoftReset
import EtherChip.Proofs.Socket.Stage

/-!
# No host socket is leaked or shared

A chip is used in a course of accesses, between which the world does what it likes to the host. The host
keeps account of the sockets that it has given to the chip and of those that the chip has closed. After
every access the former are the latter and those that the sockets of the chip hold, each as often
(`accounts_course`), and a socket holds one exactly if it is not closed. So on a host that gives every
socket a fresh identity none is leaked, closed twice or held twice (`no_socket_leaked`).
-/
namespace EtherChip

open Ledger AddressSpace

variable {ν : Type} [NetHost ν]

namespace Chip

/-- A course of accesses on a host that keeps account; before each of them the world does something to the
host. -/
def course (c : Chip) : List ((ν → ν) × Access) → Ledger ν → Chip × Ledger ν
  | [], l => (c, l)
  | (change, asked) :: later, l =>
    let after := c.access asked (l.world change)
    after.1.2.course later after.2

theorem accounts_step (c : Chip) :
    Conserves (c.step : StateM (Ledger ν) Chip) c.memory.held fun c' => c'.memory.held := by
  have transacted (c : Chip) :
      Conserves (c.transact : StateM (Ledger ν) Chip) c.memory.held fun c' => c'.memory.held := by
    unfold transact
    split
    · dsimp only
      split
      · exact .pure (.refl _)
      · exact .bind (conserves_executeSome c.memory _) fun _ => .pure (.refl _)
    · split
      · exact .bind (conserves_executeSome c.memory _) fun _ => .pure (.refl _)
      · exact .pure (.refl _)
  exact .bind (transacted _) fun c' => .bind (accounts_poll c'.memory) fun _ => .pure (.refl _)

/-- **One access.** Whatever is asked of a chip, it accounts for the host sockets. -/
theorem accounts_access (c : Chip) (asked : Access) :
    Conserves (c.access asked : StateM (Ledger ν) (Reply × Chip)) c.memory.held fun r => r.2.memory.held := by
  cases asked with
  | drive | level | steps | read | dumpCommon | dumpSocket | dumpTx | dumpRx | save => exact .pure (.refl _)
  | step => exact .bind c.accounts_step fun _ => .pure (.refl _)
  | write addr value => exact .bind (.bind (c.memory.accounts_write addr value) fun _ => .pure (.refl _)) fun _ => .pure (.refl _)
  | load state => exact .bind (.bind (c.memory.accounts_load state) fun _ => .pure (.refl _)) fun _ => .pure (.refl _)
  | reset => exact .bind (.bind c.memory.accounts_reset fun _ => .pure (.refl _)) fun _ => .pure (.refl _)

/-- **A course of accesses.** -/
theorem accounts_course (c : Chip) (accesses : List ((ν → ν) × Access)) {l : Ledger ν}
    (balance : l.opened.Perm (l.closed ++ c.memory.held)) :
    (c.course accesses l).2.opened.Perm ((c.course accesses l).2.closed ++ (c.course accesses l).1.memory.held) := by
  induction accesses generalizing c l with
  | nil => exact balance
  | cons entry later ih =>
    obtain ⟨change, asked⟩ := entry
    refine ih (c.access asked (l.world change)).1.2 ?_
    obtain ⟨opened, closed, opens, closes, kept⟩ := c.accounts_access asked (l.world change)
    rw [opens, closes]
    calc l.opened ++ opened
        _ |>.Perm ((l.closed ++ c.memory.held) ++ opened) := balance.append_right opened
        _ = l.closed ++ (c.memory.held ++ opened) := List.append_assoc ..
        _ |>.Perm (l.closed ++ (closed ++ _)) := kept.append_left l.closed
        _ = (l.closed ++ closed) ++ _ := (List.append_assoc ..).symm

/-- Whatever course a chip is used in, it is one that can be. -/
theorem Reached.course {model : ChipModel} {config : NetConfig} {c : Chip} (h : Reached (Ledger ν) model config c)
    (accesses : List ((ν → ν) × Access)) (l : Ledger ν) :
    Reached (Ledger ν) model config (c.course accesses l).1 := by
  induction accesses generalizing c l with
  | nil => exact h
  | cons entry later ih => exact ih (h.access entry.2 _) _

end Chip

/-- A socket holds one host socket, or none if it is closed. -/
theorem Engine.Staged.owned {e : Engine} (h : Staged e) :
    e.status = .closed ∧ e.host.owned = [] ∨ e.status ≠ .closed ∧ ∃ id, e.host.owned = [id] := by
  have backed := h.backed
  cases status : e.status <;> rw [status] at backed
  case closed => exact .inl ⟨rfl, by rw [backed.1]; rfl⟩
  case init =>
    obtain ⟨⟨id, host⟩ | ⟨id, dest, host⟩, -⟩ := backed <;> exact .inr ⟨nofun, id, by rw [host]; rfl⟩
  case listen | established | udpReady =>
    obtain ⟨⟨id, host⟩, -⟩ := backed
    exact .inr ⟨nofun, id, by rw [host]; rfl⟩

/-- An access that closes every socket: a reset of the chip, a load, and a write that resets the memory. -/
def Access.Clears : Access → Prop
  | .reset | .load _ => True
  | .write addr value => addr = 0 ∧ 128 ≤ value
  | _ => False

namespace Chip

/-- Closing several sockets goes to the account in their order. -/
theorem account_closeAll (ids : List SocketId) (l : Ledger ν) :
    (closeAll ids l).opened = l.opened ∧ (closeAll ids l).closed = l.closed ++ ids := by
  induction ids generalizing l with
  | nil => exact ⟨rfl, (List.append_nil _).symm⟩
  | cons id ids ih =>
    obtain ⟨opened, closed⟩ := ih (NetHost.close id l).2
    exact ⟨opened, closed.trans (List.append_assoc ..)⟩

/-- An access that closes every socket closes those that are held, once each, and opens none. -/
theorem account_clears (c : Chip) {asked : Access} (clears : asked.Clears) (l : Ledger ν) :
    let after := c.access asked l
    after.1.2.memory.held = [] ∧ after.2.opened = l.opened ∧ after.2.closed = l.closed ++ c.memory.held := by
  intro after
  have cleared : ∃ m' : AddressSpace, m'.held = [] ∧ (after.1.2.memory, after.2) = (m', c.memory.giveBack l) := by
    cases asked with
    | reset => exact ⟨_, held_powerOn _ _, c.memory.reset_run l⟩
    | load state =>
      refine ⟨_, held_eq_nil _ fun n => ?_, c.memory.load_run state l⟩
      match n with
      | 0 | 1 | 2 | 3 => rfl
    | write addr value =>
      obtain ⟨rfl, asks⟩ := clears
      exact ⟨_, held_softReset _ _ value, c.memory.write_softReset asks l⟩
    | _ => exact clears.elim
  obtain ⟨m', held, run⟩ := cleared
  obtain ⟨rfl, given⟩ := Prod.mk.inj run
  obtain ⟨opened, closed⟩ := account_closeAll c.memory.held l
  exact ⟨held, by rw [given, giveBack, opened], by rw [given, giveBack, closed]⟩

/-- **No host socket is leaked or shared.** After every course of accesses, whatever the host answers and
whatever happens to it in between: each socket of the chip holds one host socket, or none if it is closed;
and what the host has given is what the chip has closed and what its sockets hold, each as often. So if the
host gives every socket a fresh identity, the ones that are held are distinct, they are the ones given and
not closed, and none was closed twice. Every further access accounts for what it opens and replaces in the
same way, and one that closes every socket closes what was held and leaves none. -/
theorem no_socket_leaked (model : ChipModel) (config : NetConfig) (accesses : List ((ν → ν) × Access)) (net : ν) :
    let used := (powerOn model config).course accesses (Ledger.fresh net)
    let held := used.1.memory.held
    held = (List.finRange socketCount).flatMap (fun n => (used.1.memory.sockets.get n).host.owned) ∧
    (∀ n, let e := used.1.memory.sockets.get n
      e.status = .closed ∧ e.host.owned = [] ∨ e.status ≠ .closed ∧ ∃ id, e.host.owned = [id]) ∧
    used.2.opened.Perm (used.2.closed ++ held) ∧
    (used.2.opened.Nodup →
      held.Nodup ∧ used.2.closed.Nodup ∧ ∀ id, id ∈ held ↔ id ∈ used.2.opened ∧ id ∉ used.2.closed) ∧
    ∀ change asked, let after := used.1.access asked (used.2.world change)
      (∃ opened closed, after.2.opened = used.2.opened ++ opened ∧ after.2.closed = used.2.closed ++ closed ∧
        (held ++ opened).Perm (closed ++ after.1.2.memory.held)) ∧
      (asked.Clears → after.1.2.memory.held = [] ∧ after.2.opened = used.2.opened ∧
        after.2.closed = used.2.closed ++ held) := by
  intro used held
  have reached : Reached (Ledger ν) model config used.1 := Reached.powerOn.course accesses (Ledger.fresh net)
  have start : (powerOn model config).memory.held = [] := held_powerOn model config
  have balance : used.2.opened.Perm (used.2.closed ++ held) :=
    (powerOn model config).accounts_course accesses (by rw [start]; exact .refl _)
  refine ⟨rfl, fun n => (reached.history n).reachable.staged.owned, balance, fun fresh => ?_,
    fun change asked => ⟨used.1.accounts_access asked (used.2.world change), fun clears =>
      used.1.account_clears clears (used.2.world change)⟩⟩
  obtain ⟨closedOnce, heldOnce, apart⟩ := List.nodup_append.mp (balance.nodup_iff.mp fresh)
  refine ⟨heldOnce, closedOnce, fun id => ?_⟩
  rw [balance.mem_iff, List.mem_append]
  constructor
  · intro isHeld
    exact ⟨.inr isHeld, fun isClosed => apart id isClosed id isHeld rfl⟩
  · intro ⟨known, notClosed⟩
    exact known.resolve_left notClosed

/-- A datagram socket and a stream socket are opened, and the first is closed. OPEN of the stream socket
fails once, at an option of the socket that the host has just given. -/
def twoSockets : List ((Network → Network) × Access) :=
  [(id, .write 0x400 2), (id, .write 0x401 1), (id, .write 0x500 1),
    (fun net => { net with faults := [(.reuseAddress, .error .einval)] }, .write 0x501 1), (id, .write 0x501 1),
    (id, .write 0x401 0x10)]

theorem no_socket_leaked_twoSockets :
    let used := (powerOn .w5500 {}).course twoSockets (Ledger.fresh {})
    used.2.opened = [⟨0⟩, ⟨1⟩, ⟨2⟩] ∧ used.2.closed = [⟨1⟩, ⟨0⟩] ∧ used.1.memory.held.Nodup ∧
    (⟨2⟩ : SocketId) ∈ used.1.memory.held ∧ (⟨1⟩ : SocketId) ∉ used.1.memory.held ∧ (⟨0⟩ : SocketId) ∉ used.1.memory.held ∧
    (used.1.access .reset used.2).1.2.memory.held = [] ∧
    (used.1.access .reset used.2).2.closed = used.2.closed ++ used.1.memory.held := by
  have leaked := no_socket_leaked .w5500 {} twoSockets {}
  dsimp only at leaked ⊢
  generalize same : (powerOn .w5500 {}).course twoSockets (Ledger.fresh {}) = used at leaked ⊢
  have opened : used.2.opened = [⟨0⟩, ⟨1⟩, ⟨2⟩] := by
    rw [← same]
    decide +kernel
  have closed : used.2.closed = [⟨1⟩, ⟨0⟩] := by
    rw [← same]
    decide +kernel
  obtain ⟨-, -, -, fresh, further⟩ := leaked
  obtain ⟨once, -, isHeld⟩ := fresh (by rw [opened]; decide)
  have cleared := (further id .reset).2 trivial
  rw [world_id] at cleared
  refine ⟨opened, closed, once, (isHeld _).mpr ?_, fun still => ((isHeld _).mp still).2 ?_,
    fun still => ((isHeld _).mp still).2 ?_, cleared.1, cleared.2.2⟩
  · rw [opened, closed]
    decide
  · rw [closed]
    decide
  · rw [closed]
    decide

end Chip

end EtherChip

import EtherChip.Proofs.Memory.GiveBack
import EtherChip.Proofs.Memory.Storage
import EtherChip.Proofs.Socket.Ownership
import Mathlib.Data.List.Basic

/-!
# A memory accounts for its host sockets

Every operation on a memory changes sockets one by one, so that it accounts for the host sockets of all of
them as each socket does for its own: what one socket does leaves the others' alone.
-/
namespace EtherChip

/-- The first of several holders turns what it holds into something else, which is put last. -/
theorem Ledger.Conserves.turn {ν α : Type} {x : StateM (Ledger ν) α} {before : List SocketId}
    {after : α → List SocketId} (h : Conserves x before after) (rest done : List SocketId) :
    Conserves x ((before ++ rest) ++ done) fun a => rest ++ (done ++ after a) := by
  refine (h.beside (rest ++ done)).perm ?_ fun a => .of_eq (List.append_assoc ..)
  rw [List.append_assoc]
  exact List.perm_append_comm

namespace AddressSpace

open Ledger

variable {ν : Type}

/-- The program accounts for the host sockets of a memory. -/
abbrev Accounts (m : AddressSpace) (x : StateM (Ledger ν) AddressSpace) : Prop := Conserves x m.held held

theorem accounts_pure {m m' : AddressSpace} (same : m'.sockets = m.sockets) :
    m.Accounts (pure m' : StateM (Ledger ν) AddressSpace) := by
  have held : m.held = m'.held := by rw [held, held, same]
  exact .pure (.of_eq held)

/-- Changing every socket in turn. -/
theorem accounts_forSockets (m : AddressSpace) {f : Fin socketCount → Engine → StateM (Ledger ν) Engine}
    (each : ∀ n, (m.sockets.get n).Accounts (f n (m.sockets.get n))) : m.Accounts (m.forSockets f) := by
  have start : m.held = (m.sockets[0].host.owned ++ (m.sockets[1].host.owned ++
      (m.sockets[2].host.owned ++ (m.sockets[3].host.owned ++ [])))) ++ [] := (List.append_nil _).symm
  unfold Accounts
  rw [start]
  refine .bind ((each 0).turn _ []) fun a => .bind ((each 1).turn _ _) fun b => .bind ((each 2).turn _ _) fun c =>
    .bind ((each 3).turn _ _) fun d => .pure (.of_eq ?_)
  have stop : held { m with sockets := #v[a, b, c, d] } =
      a.host.owned ++ (b.host.owned ++ (c.host.owned ++ (d.host.owned ++ []))) := rfl
  rw [stop]
  simp only [List.nil_append, List.append_nil, List.append_assoc]

/-- The host sockets that the sockets but one hold. -/
def heldBeside (m : AddressSpace) (n : Fin socketCount) : List SocketId :=
  ((List.finRange socketCount).erase n).flatMap fun i => (m.sockets.get i).host.owned

theorem held_perm (m : AddressSpace) (n : Fin socketCount) :
    m.held.Perm (m.heldBeside n ++ (m.sockets.get n).host.owned) :=
  ((List.perm_cons_erase (List.mem_finRange n)).flatMap_right _).trans List.perm_append_comm

theorem heldBeside_setSocket (m : AddressSpace) (n : Fin socketCount) (e : Engine) :
    (m.setSocket n e).heldBeside n = m.heldBeside n := by
  refine List.flatMap_congr fun i other => ?_
  have ne : i ≠ n := ((List.nodup_finRange socketCount).mem_erase_iff.mp other).1
  rw [socket_setSocket_of_ne _ _ ne]

/-- Changing one socket. -/
theorem accounts_setSocket (m : AddressSpace) {n : Fin socketCount} {x : StateM (Ledger ν) Engine}
    (one : (m.sockets.get n).Accounts x) : m.Accounts (do return m.setSocket n (← x)) := by
  refine .bind ((one.beside (m.heldBeside n)).perm (m.held_perm n) fun _ => .refl _) fun e => .pure ?_
  have stop := (m.setSocket n e).held_perm n
  rw [heldBeside_setSocket, socket_setSocket_self] at stop
  exact stop.symm

variable [NetHost ν]

theorem accounts_reset (m : AddressSpace) : m.Accounts (m.reset : StateM (Ledger ν) AddressSpace) :=
  accounts_forSockets { m with common := commonPowerOn m.model } fun n => (m.sockets.get n).accounts_reset

theorem accounts_load (m : AddressSpace) (state : SaveState) :
    m.Accounts (m.load state : StateM (Ledger ν) AddressSpace) :=
  accounts_forSockets { m with common := overlay (commonPowerOn m.model) 0 (state.common.take commonSize) }
    fun n => (m.sockets.get n).accounts_load _

theorem accounts_poll (m : AddressSpace) : m.Accounts (m.poll : StateM (Ledger ν) AddressSpace) :=
  m.accounts_forSockets fun n => (m.sockets.get n).accounts_poll

/-- **A write accounts for the host sockets**, also one that resets the memory. -/
theorem accounts_write (m : AddressSpace) (addr : UInt32) (value : UInt8) :
    m.Accounts (m.write addr value : StateM (Ledger ν) AddressSpace) := by
  unfold Accounts write
  cases route addr with
  | common i =>
    dsimp only
    split
    · exact .bind m.accounts_reset fun m' => accounts_pure rfl
    · exact accounts_pure rfl
  | register socket cell =>
    exact m.accounts_setSocket ((m.sockets.get socket).accounts_step (.write m.config cell.val value))
  | tx socket offset => exact m.accounts_setSocket ((m.sockets.get socket).accounts_step (.storeTx offset value))
  | rx socket offset => exact m.accounts_setSocket ((m.sockets.get socket).accounts_step (.storeRx offset value))
  | unmapped => exact accounts_pure rfl

theorem accounts_writeBurstFrom (m : AddressSpace) (start : UInt32) (i : Nat) (data : Bytes) :
    m.Accounts (m.writeBurstFrom start i data : StateM (Ledger ν) AddressSpace) := by
  induction data generalizing m i with
  | nil => exact accounts_pure rfl
  | cons b bs ih => exact .bind (m.accounts_write _ b) fun m' => ih m' (i + 1)

theorem conserves_executeSome (m : AddressSpace) (op : Option MemoryOp) :
    Conserves (Chip.executeSome m op : StateM (Ledger ν) _) m.held fun r => r.2.held := by
  match op with
  | none | some (.read addr) => exact .pure (.refl _)
  | some (.write addr value) => exact .bind (m.accounts_write addr value) fun _ => .pure (.refl _)
  | some (.burst addr data) => exact .bind (m.accounts_writeBurstFrom addr 0 data) fun _ => .pure (.refl _)

end AddressSpace

end EtherChip

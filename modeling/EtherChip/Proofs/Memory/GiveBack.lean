import EtherChip.Host.Network
import EtherChip.Proofs.Memory.Tick

/-!
# Giving host sockets back

A reset and a load have the same effect on the host: every host socket that is held is closed, once
and in the order of the sockets' numbers (`giveBack`). What comes out of them holds none, and depends
on nothing that the sockets were before.
-/
namespace EtherChip

/-- A host after some of its sockets have been closed, one after the other. -/
def closeAll {ν : Type} [NetHost ν] (ids : List SocketId) (net : ν) : ν :=
  ids.foldl (fun net id => (NetHost.close id net).2) net

namespace AddressSpace

/-- The host sockets that are held, in the order of the sockets' numbers. -/
def held (m : AddressSpace) : List SocketId :=
  (List.finRange socketCount).flatMap fun n => (m.sockets.get n).host.id?.toList

variable {ν : Type} [NetHost ν]

/-- The host after every host socket that is held has been closed. -/
def giveBack (m : AddressSpace) (net : ν) : ν := closeAll m.held net

theorem close_run (s : HostSocket) (net : ν) : s.close net = ((), closeAll s.id?.toList net) := by
  cases s <;> rfl

/-- Changing every socket to a given one, with its host socket closed. -/
theorem forSockets_closing (m : AddressSpace) (fresh : Fin socketCount → Engine) (net : ν) :
    m.forSockets (fun n e => do e.host.close; return fresh n) net =
      ({ m with sockets := #v[fresh 0, fresh 1, fresh 2, fresh 3] }, m.giveBack net) := by
  have ids : m.held = m.sockets[0].host.id?.toList ++ (m.sockets[1].host.id?.toList ++
      (m.sockets[2].host.id?.toList ++ (m.sockets[3].host.id?.toList ++ []))) := rfl
  simp only [forSockets, bind_run, close_run, giveBack, ids, closeAll, List.foldl_append]
  rfl

theorem reset_run (m : AddressSpace) (net : ν) : m.reset net = (powerOn m.model m.config, m.giveBack net) :=
  forSockets_closing { m with common := commonPowerOn m.model } (fun _ => .powerOn) net

theorem load_run (m : AddressSpace) (state : SaveState) (net : ν) :
    m.load state net =
      ({ m with common := overlay (commonPowerOn m.model) 0 (state.common.take commonSize),
                sockets := Vector.ofFn fun n => Engine.ofState (state.sockets[n.val]?.getD {}) }, m.giveBack net) :=
  forSockets_closing { m with common := overlay (commonPowerOn m.model) 0 (state.common.take commonSize) }
    (fun n => .ofState (state.sockets[n.val]?.getD {})) net

theorem held_eq_nil (m : AddressSpace) (none : ∀ n, (m.sockets.get n).host = .none) : m.held = [] :=
  List.flatMap_eq_nil_iff.mpr fun n _ => by rw [none n]; rfl

end AddressSpace

/-! ## On the network -/

namespace Network

theorem sockets_abandon (net : Network) (waiting : List (Nat × Endpoint)) :
    (net.abandon waiting).sockets = net.sockets := by
  induction waiting generalizing net with
  | nil => rfl
  | cons entry waiting ih => exact ih _

/-- Closing takes one socket off the network. -/
theorem sockets_close (net : Network) (id : SocketId) :
    (NetHost.close id net).2.sockets = net.sockets.filter fun entry => entry.1 ≠ id := by
  change (Network.close id net).2.sockets = _
  unfold Network.close
  rw [get_run]
  split
  · rfl
  · exact congrArg (List.filter _) (sockets_abandon net _)
  · rfl

theorem sockets_closeAll (net : Network) (ids : List SocketId) :
    (closeAll ids net).sockets = net.sockets.filter fun entry => entry.1 ∉ ids := by
  induction ids generalizing net with
  | nil => exact (List.filter_eq_self.mpr fun _ _ => by simp).symm
  | cons id ids ih =>
    have rest := ih (NetHost.close id net).2
    rw [sockets_close, List.filter_filter] at rest
    refine rest.trans (List.filter_congr fun entry _ => ?_)
    simp [Bool.and_comm]

/-- Giving the host sockets back takes exactly them off the network. -/
theorem sockets_giveBack (m : AddressSpace) (net : Network) :
    (m.giveBack net).sockets = net.sockets.filter fun entry => entry.1 ∉ m.held :=
  net.sockets_closeAll m.held

end Network

end EtherChip

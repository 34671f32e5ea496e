import EtherChip.Host.Socket
import EtherChip.Proofs.Host.Outcome

/-!
# Stages of a host socket

Which stage each operation on a host socket ends in, whatever the host answers: opening gives an
unconnected stream or a datagram socket, listening and connecting go on from there, and a connection
that has been accepted or finished is a stream. What fails leaves the stage as it was, except for a
connection that is up but cannot be set up.
-/
namespace EtherChip

variable {ν : Type} [NetHost ν]

namespace HostSocket

theorem always_openTcp :
    Always (openTcp : StateM ν _) fun r => ∀ host, r = .ok host → ∃ id, host = .tcp id := by
  refine .bind (.any _) fun r _ => ?_
  cases r with
  | error e => exact .pure nofun
  | ok id =>
    refine .bind (.any _) fun r _ => ?_
    cases r with
    | error e => exact .pure nofun
    | ok _ => exact .pure fun _ h => by cases h; exact ⟨id, rfl⟩

theorem always_openUdp (addr : Endpoint) :
    Always (openUdp addr : StateM ν _) fun r => ∀ host, r = .ok host → ∃ id, host = .datagram id := by
  refine .bind (.any _) fun r _ => ?_
  cases r with
  | error e => exact .pure nofun
  | ok id =>
    refine .bind (.any _) fun r _ => ?_
    cases r with
    | error e => exact .pure nofun
    | ok _ => exact .pure fun _ h => by cases h; exact ⟨id, rfl⟩

theorem always_listen (s : HostSocket) (addr : Endpoint) :
    Always (s.listen addr : StateM ν _) fun r => ∀ host, r = .ok host → ∃ id, host = .listener id := by
  unfold listen
  split
  · rename_i id
    refine .bind (.any _) fun r _ => ?_
    cases r with
    | error e => exact .pure nofun
    | ok _ =>
      refine .bind (.any _) fun r _ => ?_
      cases r with
      | error e => exact .pure nofun
      | ok _ => exact .pure fun _ h => by cases h; exact ⟨id, rfl⟩
  · exact .pure nofun

theorem always_connect (s : HostSocket) (dest : Endpoint) :
    Always (s.connect dest : StateM ν _) fun r =>
      ∀ host, r = .ok host → ∃ id, host = .connecting id dest := by
  unfold connect
  split
  · rename_i id
    refine .bind (.any _) fun r _ => ?_
    cases r with
    | ok _ => exact .pure fun _ h => by cases h; exact ⟨id, rfl⟩
    | error e =>
      refine .pure fun host h => ?_
      split at h
      · cases h; exact ⟨id, rfl⟩
      · cases h
  · exact .pure nofun

/-- A connection that is up is a stream, and one that is not up yet is as it was. -/
theorem always_finishConnect (s : HostSocket) :
    Always (s.finishConnect : StateM ν _) fun r =>
      (∀ peer, r.1 = .ok (some peer) → ∃ id, r.2 = .stream id) ∧ (r.1 = .ok Option.none → r.2 = s) := by
  unfold finishConnect
  split
  · rename_i id dest
    refine .bind (.any _) fun r _ => ?_
    rcases r with e | _ | e
    · exact .pure ⟨nofun, nofun⟩
    · refine .bind (.any _) fun r _ => ?_
      cases r with
      | error e => exact .pure ⟨fun _ h => (by split at h <;> cases h), fun _ => rfl⟩
      | ok _ =>
        refine .bind (.any _) fun r _ => ?_
        cases r with
        | ok _ => exact .pure ⟨fun _ _ => ⟨id, rfl⟩, nofun⟩
        | error e => exact .bind (.any _) fun _ _ => .pure ⟨nofun, nofun⟩
    · exact .pure ⟨nofun, nofun⟩
  · exact .pure ⟨nofun, fun _ => rfl⟩

/-- An accepted connection is a stream; if none is accepted the listener stays. -/
theorem always_acceptNext (s : HostSocket) :
    Always (s.acceptNext : StateM ν _) fun r =>
      (∀ peer, r.1 = .ok (some peer) → ∃ id, r.2 = .stream id) ∧
      ((∀ peer, r.1 ≠ .ok (some peer)) → r.2 = s) := by
  unfold acceptNext
  split
  · rename_i id
    refine .bind (.any _) fun r _ => ?_
    cases r with
    | error e => exact .pure ⟨fun _ h => (by split at h <;> cases h), fun _ => rfl⟩
    | ok accepted =>
      refine .bind (.any _) fun r _ => ?_
      cases r with
      | ok _ =>
        exact .bind (.any _) fun _ _ => .pure ⟨fun _ _ => ⟨accepted.1, rfl⟩, fun h => absurd rfl (h accepted.2)⟩
      | error e => exact .pure ⟨nofun, fun _ => rfl⟩
  · exact .pure ⟨nofun, fun _ => rfl⟩

end HostSocket

end EtherChip

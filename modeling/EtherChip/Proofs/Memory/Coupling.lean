import EtherChip.Proofs.Memory.Storage
import EtherChip.Proofs.Socket.Coupling

/-!
# Memories on hosts that answer alike

Two memories that differ in nothing but the identities of host sockets read and save the same, and
every operation keeps them so as long as their hosts agree. Nothing here looks into an operation on a
socket: the sockets bring their own lemmas.
-/
namespace EtherChip.AddressSpace

/-- The same memory, up to the identities of the host sockets behind it. -/
structure Alike (ids : SocketId → SocketId → Prop) (m m' : AddressSpace) : Prop where
  model : m'.model = m.model
  config : m'.config = m.config
  common : m'.common = m.common
  sockets : ∀ n, (m.sockets.get n).Alike ids (m'.sockets.get n)

section

variable {ids : SocketId → SocketId → Prop} {m m' : AddressSpace}

theorem alike_powerOn (model : ChipModel) (config : NetConfig) : Alike ids (powerOn model config) (powerOn model config) where
  model := rfl
  config := rfl
  common := rfl
  sockets := by
    intro n
    match n with
    | 0 | 1 | 2 | 3 => exact Engine.alike_powerOn

theorem Alike.setSocket (h : m.Alike ids m') (n : Fin socketCount) {e e' : Engine} (alike : e.Alike ids e') :
    (m.setSocket n e).Alike ids (m'.setSocket n e') where
  model := h.model
  config := h.config
  common := h.common
  sockets := by
    intro n'
    by_cases same : n' = n
    · rw [same, socket_setSocket_self, socket_setSocket_self]
      exact alike
    · rw [socket_setSocket_of_ne _ _ same, socket_setSocket_of_ne _ _ same]
      exact h.sockets n'

theorem Alike.setCommon (h : m.Alike ids m') (i : Fin commonSize) (value : UInt8) :
    (m.setCommon i value).Alike ids (m'.setCommon i value) where
  model := h.model
  config := h.config
  common := by rw [AddressSpace.setCommon, AddressSpace.setCommon, h.common]
  sockets := h.sockets

theorem Alike.read (h : m.Alike ids m') (addr : UInt32) : m.read addr = m'.read addr := by
  unfold AddressSpace.read
  cases route addr with
  | common i => rw [h.common]
  | register socket cell => exact (h.sockets socket).readRegister cell.val
  | tx socket offset => dsimp only; rw [(h.sockets socket).tx]
  | rx socket offset => dsimp only; rw [(h.sockets socket).rx]
  | unmapped => rfl

theorem Alike.save (h : m.Alike ids m') : m.save = m'.save := by
  have sockets : m.sockets.toList.map Engine.save = m'.sockets.toList.map Engine.save := by
    refine List.ext_getElem (by simp) fun n bound _ => ?_
    simp only [List.getElem_map, Vector.getElem_toList]
    exact (h.sockets ⟨n, by simpa using bound⟩).save
  rw [AddressSpace.save, AddressSpace.save, h.common, sockets]

end

variable {ν ν' : Type} {R : ν → ν' → Prop} {ids : SocketId → SocketId → Prop} {m m' : AddressSpace}

/-- Changing every socket in turn. -/
theorem couple_forSockets (h : m.Alike ids m') {f : Fin socketCount → Engine → StateM ν Engine}
    {g : Fin socketCount → Engine → StateM ν' Engine}
    (each : ∀ n e e', e.Alike ids e' → Couple R (f n e) (g n e') (Engine.Alike ids)) :
    Couple R (m.forSockets f) (m'.forSockets g) (Alike ids) := by
  refine .bind (each 0 _ _ (h.sockets 0)) fun a a' first => .bind (each 1 _ _ (h.sockets 1)) fun b b' second =>
    .bind (each 2 _ _ (h.sockets 2)) fun c c' third => .bind (each 3 _ _ (h.sockets 3)) fun d d' fourth =>
    .pure ⟨h.model, h.config, h.common, fun n => ?_⟩
  match n with
  | 0 => exact first
  | 1 => exact second
  | 2 => exact third
  | 3 => exact fourth

variable [NetHost ν] [NetHost ν'] (agree : HostsAgree R ids)

include agree

theorem couple_reset (h : m.Alike ids m') : Couple R m.reset m'.reset (Alike ids) := by
  have cleared : Alike ids { m with common := commonPowerOn m.model } { m' with common := commonPowerOn m'.model } :=
    ⟨h.model, h.config, congrArg commonPowerOn h.model, h.sockets⟩
  exact couple_forSockets cleared fun _ _ _ => Engine.couple_reset agree

theorem couple_load (h : m.Alike ids m') (state : SaveState) :
    Couple R (m.load state) (m'.load state) (Alike ids) := by
  have loaded : Alike ids
      { m with common := overlay (commonPowerOn m.model) 0 (state.common.take commonSize) }
      { m' with common := overlay (commonPowerOn m'.model) 0 (state.common.take commonSize) } :=
    ⟨h.model, h.config, by rw [h.model], h.sockets⟩
  exact couple_forSockets loaded fun _ _ _ alike => Engine.couple_load agree alike _

theorem couple_poll (h : m.Alike ids m') : Couple R m.poll m'.poll (Alike ids) :=
  couple_forSockets h fun _ _ _ => Engine.couple_poll agree

theorem couple_write (h : m.Alike ids m') (addr : UInt32) (value : UInt8) :
    Couple R (m.write addr value) (m'.write addr value) (Alike ids) := by
  unfold write
  cases route addr with
  | common i =>
    exact .ite (fun _ => .bind (couple_reset agree h) fun _ _ reset => .pure (reset.setCommon _ _)) fun _ =>
      .pure (h.setCommon i value)
  | register socket cell =>
    rw [h.config]
    exact .bind (Engine.couple_writeRegister agree (h.sockets socket) m.config cell.val value) fun _ _ written =>
      .pure (h.setSocket socket written)
  | tx socket offset => exact .pure (h.setSocket socket ((h.sockets socket).storeTx offset value))
  | rx socket offset => exact .pure (h.setSocket socket ((h.sockets socket).storeRx offset value))
  | unmapped => exact .pure h

theorem couple_writeBurstFrom (h : m.Alike ids m') (start : UInt32) (i : Nat) (data : Bytes) :
    Couple R (m.writeBurstFrom start i data) (m'.writeBurstFrom start i data) (Alike ids) := by
  induction data generalizing m m' i with
  | nil => exact .pure h
  | cons b bs ih => exact .bind (couple_write agree h (burstAddr start i) b) fun _ _ written => ih written (i + 1)

/-- Carrying out what a framing came up with: the answer is the same. -/
theorem couple_executeSome (h : m.Alike ids m') (op : Option MemoryOp) :
    Couple R (Chip.executeSome m op) (Chip.executeSome m' op) fun a b => a.1 = b.1 ∧ a.2.Alike ids b.2 := by
  match op with
  | none => exact .pure ⟨rfl, h⟩
  | some (.read addr) => exact .pure ⟨h.read addr, h⟩
  | some (.write addr value) => exact .bind (couple_write agree h addr value) fun _ _ written => .pure ⟨rfl, written⟩
  | some (.burst addr data) =>
    exact .bind (couple_writeBurstFrom agree h addr 0 data) fun _ _ written => .pure ⟨rfl, written⟩

end EtherChip.AddressSpace

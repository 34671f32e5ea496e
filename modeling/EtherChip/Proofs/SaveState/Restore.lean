import EtherChip.Chip
import EtherChip.Host.Network
import EtherChip.Proofs.Memory.GiveBack
import EtherChip.Proofs.Memory.Storage
import EtherChip.Proofs.SaveState.Format
import EtherChip.Proofs.Socket.RingCopy

/-!
# From one chip through a file to another

Every cell of a chip is saved, so a saved memory is taken over as it is, up to what cannot be saved:
the sockets are closed, and the status cells show it (`load_save`). Nothing of the chip that loads is
left but its lines, its step count and its configuration.
-/
namespace EtherChip

/-! ## What comes out of what was saved -/

theorem overlay_toList {n : Nat} (cells saved : Vector UInt8 n) : overlay cells 0 (saved.toList.take n) = saved := by
  ext j bound
  rw [getElem_overlay _ _ _ bound, if_pos (Nat.zero_le j), Nat.sub_zero, List.take_of_length_le (by simp)]
  simp [bound]

@[simp] theorem RegisterBank.ofBytes_toBytes (r : RegisterBank) : ofBytes r.toBytes = r :=
  congrArg _ (overlay_toList _ _)

@[simp] theorem Ring.ofBytes_toBytes (r : Ring) : ofBytes r.toBytes = r := congrArg _ (overlay_toList _ _)

namespace Engine

/-- A socket as it comes out of its saved state. -/
def restored (e : Engine) : Engine :=
  { regs := e.regs.set Cell.status Status.closed.code, tx := e.tx, rx := e.rx, rxWrite := e.rxWrite }

theorem ofState_save (e : Engine) : ofState e.save = e.restored := by
  simp only [ofState, save, RegisterBank.ofBytes_toBytes, Ring.ofBytes_toBytes, RingOffset.ofWord_toWord, restored]

/-- Restoring changes what the firmware reads at the status cell only. -/
theorem readRegister_restored (e : Engine) (cell : Nat) :
    e.restored.readRegister cell = if cell = Cell.status then 0 else e.readRegister cell := by
  unfold readRegister
  by_cases status : cell = Cell.status
  · rw [if_neg (by rw [status]; decide), if_pos status, if_pos status]
    rfl
  · rw [if_neg status, if_neg status, if_neg status]
    simp only [restored, RegisterBank.get_set_of_ne _ _ status]

/-- Saving again shows the status cell of a closed socket. -/
theorem save_restored (e : Engine) :
    e.restored.save = { e.save with registers := e.save.registers.set Cell.status 0 } := by
  have cells : e.restored.save.registers = e.save.registers.set Cell.status 0 := Array.toList_setIfInBounds ..
  rw [← cells]
  rfl

end Engine

theorem AddressSpace.fits_save (m : AddressSpace) : m.save.Fits where
  common := by
    rw [save, Vector.length_toList]
    decide
  count := by
    rw [save, List.length_map, Vector.length_toList]
    decide
  sockets := by
    intro socket member
    obtain ⟨e, -, rfl⟩ := List.mem_map.mp member
    refine ⟨?_, ?_, ?_⟩ <;> simp only [Engine.save, RegisterBank.length_toBytes, Ring.length_toBytes] <;> decide

variable {ν : Type} [NetHost ν]

/-- A memory of the same model takes over all that another one saves. -/
theorem AddressSpace.load_save (m : AddressSpace) {saved : AddressSpace} (same : m.model = saved.model) (net : ν) :
    m.load saved.save net =
      ({ saved with config := m.config, sockets := saved.sockets.map Engine.restored }, m.giveBack net) := by
  have common : overlay (commonPowerOn m.model) 0 (saved.save.common.take commonSize) = saved.common :=
    overlay_toList _ _
  have sockets : (Vector.ofFn fun n : Fin socketCount => Engine.ofState (saved.save.sockets[n.val]?.getD {})) =
      saved.sockets.map Engine.restored := by
    ext n bound
    simp [save, Engine.ofState_save]
  rw [load_run, common, sockets, same]

/-! ## Chips and files -/

/-- A saved state with the status cells of closed sockets. -/
def SaveState.closed (s : SaveState) : SaveState :=
  { s with sockets := s.sockets.map fun socket => { socket with registers := socket.registers.set Cell.status 0 } }

namespace Chip

/-- A chip has taken over what another one has saved. The firmware sees the same memory with all
sockets closed, and no transaction is in progress. -/
structure Restored (saved c : Chip) : Prop where
  read : ∀ addr, c.read addr =
    if ∃ n : Fin socketCount, addr = registerAddr n Cell.status then 0 else saved.read addr
  rxWrite : ∀ n, (c.memory.sockets.get n).rxWrite = (saved.memory.sockets.get n).rxWrite
  status : ∀ n, (c.memory.sockets.get n).status = .closed
  host : ∀ n, (c.memory.sockets.get n).host = .none
  protocol : ∀ n, (c.memory.sockets.get n).protocol = none
  sendEnd : ∀ n, (c.memory.sockets.get n).sendEnd = none
  sampler : c.sampler = {}
  decoder : c.decoder.isIdle = true
  save : c.save = saved.save.closed

theorem load_run (c : Chip) (state : SaveState) (net : ν) :
    c.load state net =
      ({ c with sampler := {}, decoder := c.decoder.reset, wasSelected := false,
                memory := (c.memory.load state net).1 }, (c.memory.load state net).2) := rfl

/-- The status cells are the only cells that a restored memory does not show as they were. -/
theorem read_restored {m saved : AddressSpace} (common : m.common = saved.common)
    (sockets : ∀ n, m.sockets.get n = (saved.sockets.get n).restored) (addr : UInt32) :
    m.read addr = if ∃ n : Fin socketCount, addr = registerAddr n Cell.status then 0 else saved.read addr := by
  have status : (∃ n : Fin socketCount, addr = registerAddr n Cell.status) ↔
      ∃ n : Fin socketCount, route addr = .register n ⟨Cell.status, by decide⟩ := by
    refine exists_congr fun n => ?_
    rw [← route_registerAddr, route_eq_route, route_registerAddr]
    simp
  simp only [AddressSpace.read_eq_byteAt, status]
  cases target : route addr with
  | common i => simp [AddressSpace.byteAt, common]
  | register n cell =>
    have here : (∃ n', Target.register n cell = .register n' ⟨Cell.status, by decide⟩) ↔ cell.val = Cell.status := by
      constructor
      · rintro ⟨n', same⟩
        exact congrArg Fin.val (Target.register.inj same).2
      · intro same
        exact ⟨n, congrArg _ (Fin.ext same)⟩
    simp only [AddressSpace.byteAt, sockets, Engine.readRegister_restored, here]
  | tx n o => simp [AddressSpace.byteAt, sockets, Engine.restored]
  | rx n o => simp [AddressSpace.byteAt, sockets, Engine.restored]
  | unmapped => simp [AddressSpace.byteAt]

theorem restored_load {c saved : Chip} (same : c.model = saved.model) (net : ν) :
    ∃ c', c.load saved.save net = (c', c.memory.giveBack net) ∧ Restored saved c' := by
  have socket (n : Fin socketCount) :
      (saved.memory.sockets.map Engine.restored).get n = (saved.memory.sockets.get n).restored :=
    Vector.getElem_map ..
  rw [load_run, show saved.save = saved.memory.save from rfl, AddressSpace.load_save c.memory same]
  exact ⟨_, rfl, {
    read := read_restored rfl socket
    rxWrite := fun n => by rw [socket]; rfl
    status := fun n => by rw [socket]; rfl
    host := fun n => by rw [socket]; rfl
    protocol := fun n => by rw [socket]; rfl
    sendEnd := fun n => by rw [socket]; rfl
    sampler := rfl
    decoder := by cases c.decoder <;> rfl
    save := by
      simp only [save, AddressSpace.save, SaveState.closed, SaveState.mk.injEq, Vector.toList_map, List.map_map,
        true_and]
      exact List.map_congr_left fun e _ => e.save_restored }⟩

end Chip

theorem Storage.read_write {storage storage' : Storage} {path : String} {file : Bytes}
    (written : storage.write path file = .ok storage') : storage'.read path = .ok file := by
  unfold write at written
  split at written
  · cases written
    simp only [read, List.lookup_cons_self]
  · cases written

namespace Chip

/-- **What one chip saves, every chip of its model takes over**, whatever both were doing: the file is
accepted, every cell reads as it was saved except the status cells of the sockets, which are closed,
and no host socket is left. A chip of the other model refuses the file and asks nothing of the host.
Of the compression nothing is needed but that what it has compressed comes back. -/
theorem load_saved {z : Compression} (inverts : z.Inverts) {saved : Chip} {storage storage' : Storage} {path : String}
    (written : saved.saveTo z storage path = .ok storage') (c : Chip) (net : ν) :
    (c.model = saved.model →
      ∃ c', c.loadFrom z storage' path net = (.ok c', c.memory.giveBack net) ∧ Restored saved c') ∧
    (c.model ≠ saved.model →
      c.loadFrom z storage' path net = (.error (.modelMismatch (some saved.model) c.model), net)) := by
  have file : storage'.read path = .ok (SaveFile.encode z saved.save saved.model) := Storage.read_write written
  constructor
  · intro same
    have decoded : (storage'.read path >>= fun file => SaveFile.decode z file c.model) = .ok saved.save := by
      rw [file, same]
      exact SaveFile.decode_encode inverts saved.memory.fits_save
    obtain ⟨c', loaded, restored⟩ := restored_load same net
    refine ⟨c', ?_, restored⟩
    rw [loadFrom, decoded]
    dsimp only
    rw [bind_run, loaded]
    rfl
  · intro differ
    have refused : (storage'.read path >>= fun file => SaveFile.decode z file c.model) =
        .error (.modelMismatch (some saved.model) c.model) := by
      rw [file]
      exact SaveFile.decode_other_model (Ne.symm differ)
    rw [loadFrom, refused]
    rfl

/-- A chip whose socket 0 is connected and has a SEND under way, in the middle of a transaction. -/
def sending : Chip :=
  { powerOn .w5500 {} with
    decoder := .burst (.addrLow 0x40)
    memory := { AddressSpace.powerOn .w5500 {} with
      sockets := #v[{ Engine.powerOn.enter .established with
                      protocol := some .tcp, host := .stream ⟨7⟩, rxWrite := RingOffset.ofNat 9,
                      sendEnd := some (RingOffset.ofNat 5) },
                    .powerOn, .powerOn, .powerOn] } }

theorem load_saved_sending :
    ∃ storage', sending.saveTo .stored {} "chip.sav" = .ok storage' ∧
      (∃ c', (powerOn .w5500 {}).loadFrom .stored storage' "chip.sav" ({} : Network) = (.ok c', {}) ∧
        Restored sending c' ∧ (c'.memory.sockets.get 0).rxWrite = RingOffset.ofNat 9) ∧
      (powerOn .w5100 {}).loadFrom .stored storage' "chip.sav" ({} : Network) =
        (.error (.modelMismatch (some .w5500) .w5100), {}) := by
  have written : sending.saveTo .stored {} "chip.sav" =
      .ok { files := [("chip.sav", SaveFile.encode .stored sending.save .w5500)] } := by
    rw [saveTo, Storage.write, if_pos (by decide)]
    rfl
  have spec := load_saved Compression.inverts_stored written (ν := Network)
  obtain ⟨c', loaded, restored⟩ := (spec (powerOn .w5500 {}) {}).1 rfl
  refine ⟨_, written, ⟨c', loaded, restored, ?_⟩, (spec (powerOn .w5100 {}) {}).2 (by decide)⟩
  rw [restored.rxWrite]
  rfl

end Chip

end EtherChip

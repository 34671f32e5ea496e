import EtherChip.Proofs.Bus.Access
import EtherChip.Proofs.SaveState.Restore

/-!
# Loading a state of any shape

A state may have byte strings of any length and any number of sockets. A chip that loads it takes over
its normal form (`SaveState.normal`), which says of every cell where it comes from, and nothing of what
the chip was before (`load_normalises`): two chips that load the same state differ in their lines and
step counts at most, and save the same.
-/
namespace EtherChip

/-- Bytes in the place of default ones: missing ones are the default ones, surplus ones are cut off. -/
def Bytes.filled (defaults data : Bytes) : Bytes := data.take defaults.length ++ defaults.drop data.length

theorem Bytes.length_filled (defaults data : Bytes) : (filled defaults data).length = defaults.length := by
  rw [filled, List.length_append, List.length_take, List.length_drop]
  omega

/-! ## Normal forms -/

/-- A socket that a state says nothing of: power-on registers and rings of zeros. -/
def SocketState.blank : SocketState :=
  { registers := bankPowerOn.toList, tx := List.replicate 2048 0, rx := List.replicate 2048 0, rxWrite := 0 }

/-- The state of a socket with all of its cells, as that of a closed socket. -/
def SocketState.normal (s : SocketState) : SocketState :=
  { registers := (Bytes.filled blank.registers s.registers).set Cell.status 0
    tx := Bytes.filled blank.tx s.tx
    rx := Bytes.filled blank.rx s.rx
    rxWrite := s.rxWrite % 2048 }

/-- The state with all of its cells and exactly four sockets, all of them closed. -/
def SaveState.normal (model : ChipModel) (s : SaveState) : SaveState :=
  { common := Bytes.filled (commonPowerOn model).toList s.common
    sockets := (List.range 4).map fun n => (s.sockets[n]?.map SocketState.normal).getD .blank }

/-! ## What is loaded -/

/-- Cells that have been written over from the first one on. -/
theorem toList_overlay {n : Nat} (cells : Vector UInt8 n) (data : Bytes) :
    (overlay cells 0 (data.take n)).toList = Bytes.filled cells.toList data := by
  apply List.ext_getElem
  · rw [Bytes.length_filled, Vector.length_toList, Vector.length_toList]
  intro j bound _
  rw [Vector.length_toList] at bound
  rw [Vector.getElem_toList, getElem_overlay _ _ _ bound, if_pos (Nat.zero_le j), Nat.sub_zero,
    List.getElem?_take_of_lt bound]
  simp only [Bytes.filled, Vector.length_toList, List.getElem_append, List.length_take]
  split
  · rename_i given
    rw [List.getElem_take, List.getElem?_eq_getElem (by omega), Option.getD_some]
  · rename_i missing
    rw [List.getElem?_eq_none (by omega), Option.getD_none, List.getElem_drop, Vector.getElem_toList]
    congr 1
    omega

namespace Engine

/-- A socket without anything of the host, and with no SEND under way. -/
structure Detached (e : Engine) : Prop where
  status : e.status = .closed
  protocol : e.protocol = none
  host : e.host = .none
  sendEnd : e.sendEnd = none

theorem toWord_ofWord (w : UInt16) : (RingOffset.ofWord w).toWord = w % 2048 := by
  apply UInt16.toNat_inj.mp
  simp only [RingOffset.ofWord, RingOffset.toWord, RingOffset.val_ofNat, UInt16.toNat_ofNat', UInt16.toNat_mod]
  have : w.toNat % ringSize < ringSize := Nat.mod_lt _ (by decide)
  exact Nat.mod_eq_of_lt (by simp only [ringSize] at *; omega)

/-- **A socket that has loaded a state has its normal form.** -/
theorem save_ofState (s : SocketState) : (ofState s).save = s.normal := by
  have registers : (ofState s).save.registers = (Bytes.filled bankPowerOn.toList s.registers).set Cell.status 0 := by
    rw [← toList_overlay]
    exact Array.toList_setIfInBounds ..
  have ring (data : Bytes) : (Ring.ofBytes data).toBytes = Bytes.filled (List.replicate 2048 0) data := by
    have zeros : Ring.empty.cells.toList = List.replicate 2048 0 := Vector.toList_replicate
    rw [← zeros]
    exact toList_overlay _ _
  have parts : (ofState s).save = ⟨(ofState s).save.registers, (Ring.ofBytes s.tx).toBytes,
    (Ring.ofBytes s.rx).toBytes, (RingOffset.ofWord s.rxWrite).toWord⟩ := rfl
  rw [parts, registers, ring, ring, toWord_ofWord]
  rfl

theorem ofState_normal (s : SocketState) : ofState s.normal = ofState s := by
  rw [← save_ofState, ofState_save]
  simp only [restored, ofState, RegisterBank.set, Vector.setIfInBounds_setIfInBounds]

/-- A socket that a state says nothing of is blank. -/
theorem save_ofState_missing : (ofState {}).save = .blank := by
  decide +kernel

end Engine

variable {ν ν' : Type} [NetHost ν] [NetHost ν']

namespace AddressSpace

/-- **A memory that has loaded a state saves its normal form.** -/
theorem save_load (m : AddressSpace) (s : SaveState) (net : ν) : (m.load s net).1.save = s.normal m.model := by
  have socket (n : Nat) : (Engine.ofState (s.sockets[n]?.getD {})).save =
      (s.sockets[n]?.map SocketState.normal).getD .blank := by
    cases s.sockets[n]? with
    | none => exact Engine.save_ofState_missing
    | some state => exact Engine.save_ofState state
  rw [load_run, SaveState.normal, save, SaveState.mk.injEq]
  refine ⟨toList_overlay _ _, ?_⟩
  simp only [← socket]
  rfl

/-- **A state and its normal form are loaded alike.** -/
theorem load_normal (m : AddressSpace) (s : SaveState) (net : ν) : m.load (s.normal m.model) net = m.load s net := by
  have common : overlay (commonPowerOn m.model) 0 ((s.normal m.model).common.take commonSize) =
      overlay (commonPowerOn m.model) 0 (s.common.take commonSize) := by
    rw [SaveState.normal, ← toList_overlay, overlay_toList]
  have socket (n : Fin socketCount) : Engine.ofState ((s.normal m.model).sockets[n.val]?.getD {}) =
      Engine.ofState (s.sockets[n.val]?.getD {}) := by
    have here : (s.normal m.model).sockets[n.val]? = some ((s.sockets[n.val]?.map SocketState.normal).getD .blank) := by
      rw [SaveState.normal, List.getElem?_map, List.getElem?_range n.isLt, Option.map_some]
    rw [here, Option.getD_some]
    cases s.sockets[n.val]? with
    | none =>
      rw [Option.map_none, Option.getD_none, Option.getD_none, ← Engine.save_ofState_missing, Engine.save_ofState,
        Engine.ofState_normal]
    | some state => exact Engine.ofState_normal state
  simp only [load_run, common, socket]

/-- Normal forms are their own. -/
theorem normal_normal (model : ChipModel) (s : SaveState) : (s.normal model).normal model = s.normal model := by
  let m := powerOn model {}
  have alike : m.load (s.normal model) ({} : Network) = m.load s {} := load_normal m s ({} : Network)
  calc (s.normal model).normal model
    _ = (m.load (s.normal model) ({} : Network)).1.save := (save_load m _ _).symm
    _ = (m.load s ({} : Network)).1.save := by rw [alike]
    _ = s.normal model := save_load m s _

end AddressSpace

namespace Chip

/-- **Loading erases the past.** For every state, of whatever shape, and every two chips of one model and
configuration, whatever has been done with them and whatever their hosts are like: once both have loaded
the state they have the same memory, framing and sampler, with every socket closed, and save the normal
form of the state. Loading the normal form does the same as loading the state, to the chip and to its
host. -/
theorem load_normalises {model : ChipModel} {config : NetConfig} {c c' : Chip} (reached : Reached ν model config c)
    (reached' : Reached ν' model config c') (s : SaveState) (net : ν) (net' : ν') :
    let loaded := (c.load s net).1
    let loaded' := (c'.load s net').1
    loaded' = { loaded with lines := c'.lines, steps := c'.steps } ∧
    loaded.save = s.normal model ∧
    (∀ n, (loaded.memory.sockets.get n).Detached) ∧
    (s.normal model).normal model = s.normal model ∧
    c.load (s.normal model) net = c.load s net := by
  intro loaded loaded'
  obtain ⟨⟨sameModel, sameConfig⟩, framing, -⟩ := reached.sound
  obtain ⟨⟨sameModel', sameConfig'⟩, framing', -⟩ := reached'.sound
  have memory : (c'.memory.load s net').1 = (c.memory.load s net).1 := by
    simp only [AddressSpace.load_run, sameModel, sameModel', sameConfig, sameConfig']
  refine ⟨?_, ?_, fun n => ?_, AddressSpace.normal_normal model s, ?_⟩
  · simp only [loaded, loaded', load_run, memory, framing, framing']
  · rw [← sameModel]
    exact c.memory.save_load s net
  · have socket : loaded.memory.sockets.get n = Engine.ofState (s.sockets[n.val]?.getD {}) := by
      simp only [loaded, load_run, AddressSpace.load_run]
      exact Vector.getElem_ofFn ..
    rw [socket]
    exact ⟨rfl, rfl, rfl, rfl⟩
  · rw [load_run, load_run, ← sameModel, AddressSpace.load_normal]

/-- A state with one short socket, whose write position lies outside of its ring. -/
def oddState : SaveState := { common := [0x12, 0x34], sockets := [{ registers := [1, 0, 0, 0x17], rxWrite := 5000 }] }

theorem load_normalises_oddState :
    let c := powerOn .w5500 {}
    let used := ((powerOn .w5500 {}).access (.write 0x4000 7) ({} : Network)).1.2
    let loaded := (c.load oddState ({} : Network)).1
    used ≠ c ∧ (used.load oddState ({} : Network)).1.memory = loaded.memory ∧
      loaded.save = oddState.normal .w5500 ∧
      (oddState.normal .w5500).sockets.map (fun socket => (socket.registers.take 4, socket.rxWrite)) =
        [([1, 0, 0, 0], 904), ([0, 0, 0, 0], 0), ([0, 0, 0, 0], 0), ([0, 0, 0, 0], 0)] := by
  intro c used loaded
  have fresh : Reached Network .w5500 {} c := .powerOn
  have differ : used.read 0x4000 ≠ c.read 0x4000 := by decide +kernel
  have written : Reached Network .w5500 {} used := fresh.access (.write 0x4000 7) {}
  obtain ⟨same, saved, -⟩ := load_normalises fresh written oddState ({} : Network) ({} : Network)
  exact ⟨fun equal => differ (equal ▸ rfl), congrArg Chip.memory same, saved, by decide +kernel⟩

end Chip

end EtherChip

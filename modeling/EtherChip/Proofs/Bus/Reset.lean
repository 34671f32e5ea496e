import EtherChip.Proofs.Bus.Access
import EtherChip.Proofs.Bus.Exchange
import EtherChip.Proofs.Memory.SoftReset

/-!
# Resets erase the past

A hardware reset makes of every chip that can be the chip of its model and configuration as it comes
into being, but for the levels that its input lines have (`reset_run`); so a program that shows it
something afterwards sees what it would see of a fresh one, provided the host answers both alike. A reset
through the mode register does the same to the memory, in the middle of whatever transaction it comes
(`step_softReset`). Both give every host socket back.
-/
namespace EtherChip.Chip

variable {ν ν' : Type} [NetHost ν] [NetHost ν'] {model : ChipModel} {config : NetConfig} {c : Chip}

/-- A fresh chip whose input lines have the levels of another one's. -/
def freshLike (c : Chip) (model : ChipModel) (config : NetConfig) : Chip :=
  (powerOn model config).present ⟨c.lines.ss, c.lines.sck, c.lines.mosi⟩

theorem Sound.reset_run (h : c.Sound model config) (net : ν) :
    c.reset net = (c.freshLike model config, c.memory.giveBack net) := by
  have run : c.reset net =
      ({ lines := { c.lines with miso := false }, sampler := {}, decoder := c.decoder.reset,
         memory := (c.memory.reset net).1, wasSelected := false, steps := 0 }, (c.memory.reset net).2) := rfl
  rw [run, AddressSpace.reset_run, h.space.1, h.space.2, h.framing]
  rfl

/-- A step is a tick of the memory, on what the framing asks for. -/
theorem Sound.step_tick (h : c.Sound model config) (net : ν) :
    ((c.step net).1.memory, (c.step net).2) = c.memory.tick c.asked net :=
  congrArg (fun after => (after.1.memory, after.2)) (c.step_meets h.taken net).1

/-- A step that carries out a write to the mode register which asks for a reset: only the writes after
it in the same operation are left of what was carried out. -/
theorem Sound.step_softReset (h : c.Sound model config) {op : MemoryOp} (asked : c.asked = some op)
    {before later : List (UInt32 × UInt8)} {value : UInt8} (writes : op.writes = before ++ (0, value) :: later)
    (asks : 128 ≤ value) (net : ν) :
    let first := c.memory.writes before net
    let last := (AddressSpace.softReset model config value).writes later (first.1.giveBack first.2)
    ((c.step net).1.memory, (c.step net).2) = last.1.poll last.2 := by
  intro first last
  have executed : ((execute c.memory op net).1.2, (execute c.memory op net).2) = last := by
    rw [AddressSpace.execute_writes, writes, AddressSpace.writes_softReset _ _ _ asks, h.space.1, h.space.2]
  rw [h.step_tick, asked, ← executed]
  rfl

/-- Nothing of a chip's past shows after a reset. The courses of later accesses are those of a program
that asks both chips for the same, while their hosts stay in corresponding states. -/
structure PastErased (R : ν → ν' → Prop) (model : ChipModel) (config : NetConfig) (c : Chip) : Prop where
  /-- After a hardware reset the chip replies as a fresh one. -/
  replies : ∀ net net' later later', R (c.reset net).2 net' → SameCourse R later later' →
    (c.reset net).1.replies later (c.reset net).2 = (c.freshLike model config).replies later' net'
  /-- A hardware reset closes every host socket. -/
  released : ∀ net : ν, (c.reset net).1.memory.held = [] ∧ (c.reset net).2 = c.memory.giveBack net
  /-- A write to the mode register that has bit 7 resets the memory, and closes every host socket. -/
  written : ∀ (value : UInt8) (net : ν), 128 ≤ value →
    (AddressSpace.softReset model config value).held = [] ∧
      c.write 0 value net = ({ c with memory := .softReset model config value }, c.memory.giveBack net)
  /-- So does every byte of an operation that a transaction carries out; the bytes after it are written
  to the memory that was reset. -/
  carried : ∀ (op : MemoryOp) before (value : UInt8) later (net : ν), 128 ≤ value → c.asked = some op →
    op.writes = before ++ (0, value) :: later →
    let first := c.memory.writes before net
    let last := (AddressSpace.softReset model config value).writes later (first.1.giveBack first.2)
    ((c.step net).1.memory, (c.step net).2) = last.1.poll last.2 ∧
      (later = [] →
        (c.step net).1.memory = .softReset model config value ∧ (c.step net).2 = first.1.giveBack first.2)

/-- **A reset erases the past** of every chip that can be, by hardware or through the mode register.
Which host sockets the chip has held before does not matter either: the host of the fresh chip may be
another one, as long as the two answer alike. -/
theorem reset_erases_past {R : ν → ν' → Prop} {ids : SocketId → SocketId → Prop} (agree : HostsAgree R ids)
    (reached : Reached ν model config c) : c.PastErased R model config := by
  have sound := reached.sound
  have fresh : (c.freshLike model config).Alike ids (c.freshLike model config) :=
    ⟨_, AddressSpace.alike_powerOn model config, rfl⟩
  exact {
    replies := fun net net' later later' now course => by
      -- both chips are fresh now, so they differ in their hosts only
      rw [sound.reset_run net] at now ⊢
      exact fresh.replies agree course now
    released := fun net => by
      rw [sound.reset_run net]
      exact ⟨AddressSpace.held_powerOn model config, rfl⟩
    written := fun value net asks => by
      have written := AddressSpace.write_softReset c.memory asks net
      rw [sound.space.1, sound.space.2] at written
      refine ⟨AddressSpace.held_softReset model config value, ?_⟩
      rw [write, bind_run, written]
      rfl
    carried := by
      intro op before value later net asks asked writes first last
      have step := sound.step_softReset asked writes asks net
      refine ⟨step, fun nothing => Prod.mk.inj ?_⟩
      subst nothing
      exact step.trans (AddressSpace.poll_softReset model config value _) }

/-- A chip whose socket 0 holds a host socket, and the network that has given it. -/
def opened : Chip × Network :=
  let asked := (powerOn .w5500 {}).access (.write 0x400 1) {}
  let opened := asked.1.2.access (.write 0x401 1) asked.2
  (opened.1.2, opened.2)

/-- The same chip when it is deselected after a burst of two bytes from address 0 on. -/
def afterBurst : Chip :=
  (opened.1.follow (selectedWave false [0x00, 0x00, controlByte 0 true, 0x85, 0x22]) opened.2).1.present
    ⟨true, false, false⟩

theorem reset_erases_past_afterBurst :
    Reached Network .w5500 {} afterBurst ∧ afterBurst.memory.held = [⟨0⟩] ∧
      afterBurst.asked = some (.burst 0 [0x85, 0x22]) ∧
      (let after := afterBurst.reset opened.2
       let later : List ((Network → Network) × Access) := [(id, .step), (id, .read 0x403), (id, .save)]
       after.1.memory.held = [] ∧ after.2.sockets = [] ∧
         after.1.replies later after.2 = (afterBurst.freshLike .w5500 {}).replies later after.2) ∧
      afterBurst.write 0 0x85 opened.2 =
        ({ afterBurst with memory := .softReset .w5500 {} 0x85 }, afterBurst.memory.giveBack opened.2) ∧
      (afterBurst.step opened.2).1.read 0 = 0x05 ∧ (afterBurst.step opened.2).1.read 1 = 0x22 ∧
      (afterBurst.step opened.2).1.read 0x403 = 0 := by
  have reached : Reached Network .w5500 {} afterBurst :=
    (((Reached.powerOn.access _ _).access _ _).follow _ opened.2).present _ opened.2
  have asked : afterBurst.asked = some (.burst 0 [0x85, 0x22]) := by decide +kernel
  have erased := reset_erases_past HostsAgree.refl reached
  have released := erased.released opened.2
  have none : (afterBurst.reset opened.2).2.sockets = [] := by
    rw [released.2, Network.sockets_giveBack]
    decide +kernel
  have step := (erased.carried _ [] 0x85 [(1, 0x22)] opened.2 (by decide) asked rfl).1
  have read (addr : UInt32) : (afterBurst.step opened.2).1.read addr = _ := congrArg (·.1.read addr) step
  exact ⟨reached, by decide +kernel, asked,
    ⟨released.1, none, erased.replies opened.2 _ _ _ rfl (.refl _)⟩,
    (erased.written 0x85 opened.2 (by decide)).2, (read 0).trans (by decide +kernel), (read 1).trans (by decide +kernel),
    (read 0x403).trans (by decide +kernel)⟩

end EtherChip.Chip

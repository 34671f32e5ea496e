import EtherChip.Proofs.Bus.Access

/-!
# The sockets of a chip have histories

Whatever is done to a chip reaches its sockets as events, one after the other, so each of them is the
outcome of a history from power-on (`Chip.Reached.history`). What holds of a socket after every history
holds of every socket of every chip that can be.
-/
namespace EtherChip

variable {ν : Type} [NetHost ν]

variable (ν) in
/-- The outcome of a history from power-on, with hosts of one kind. -/
def Engine.HasHistory (e : Engine) : Prop := ∃ events : List (Event × ν), e = powerOn.trace events

theorem Engine.HasHistory.reachable {e : Engine} (h : e.HasHistory ν) : Reachable e := ⟨ν, inferInstance, h⟩

theorem Engine.hasHistory_powerOn : Engine.powerOn.HasHistory ν := ⟨[], rfl⟩

/-- A history goes on. -/
theorem Engine.HasHistory.step {e : Engine} (h : e.HasHistory ν) (event : Event) :
    Always (e.step event : StateM ν Engine) (HasHistory ν) := by
  obtain ⟨events, rfl⟩ := h
  intro net
  refine ⟨events ++ [(event, net)], ?_⟩
  rw [trace_append]
  rfl

namespace AddressSpace

variable (ν) in
def HaveHistories (m : AddressSpace) : Prop := ∀ n, (m.sockets.get n).HasHistory ν

theorem haveHistories_powerOn (model : ChipModel) (config : NetConfig) : (powerOn model config).HaveHistories ν := by
  intro n
  match n with
  | 0 | 1 | 2 | 3 => exact Engine.hasHistory_powerOn

variable {m : AddressSpace}

theorem HaveHistories.setSocket (h : m.HaveHistories ν) (n : Fin socketCount) {e : Engine} (one : e.HasHistory ν) :
    (m.setSocket n e).HaveHistories ν := by
  intro n'
  by_cases same : n' = n
  · rw [same, socket_setSocket_self]
    exact one
  · rw [socket_setSocket_of_ne _ _ same]
    exact h n'

/-- One event for every socket. -/
theorem HaveHistories.forSockets (h : m.HaveHistories ν) (event : Fin socketCount → Engine.Event) :
    Always (m.forSockets fun n e => e.step (event n) : StateM ν _) (HaveHistories ν) := by
  intro net n
  rw [socket_forSockets]
  exact (h n).step (event n) _

theorem HaveHistories.poll (h : m.HaveHistories ν) : Always (m.poll : StateM ν _) (HaveHistories ν) :=
  h.forSockets fun _ => .poll

theorem HaveHistories.reset (h : m.HaveHistories ν) : Always (m.reset : StateM ν _) (HaveHistories ν) :=
  forSockets (m := { m with common := commonPowerOn m.model }) h fun _ => .reset

theorem HaveHistories.load (h : m.HaveHistories ν) (state : SaveState) :
    Always (m.load state : StateM ν _) (HaveHistories ν) :=
  forSockets (m := { m with common := overlay (commonPowerOn m.model) 0 (state.common.take commonSize) }) h
    fun n => .load (state.sockets[n.val]?.getD {})

theorem HaveHistories.write (h : m.HaveHistories ν) (addr : UInt32) (value : UInt8) :
    Always (m.write addr value : StateM ν _) (HaveHistories ν) := by
  unfold AddressSpace.write
  cases route addr with
  | common i =>
    dsimp only
    split
    · exact .bind h.reset fun _ reset => .pure reset
    · exact .pure h
  | register socket cell =>
    exact .bind ((h socket).step (.write m.config cell.val value)) fun _ one => .pure (h.setSocket socket one)
  | tx socket offset =>
    exact .bind ((h socket).step (.storeTx offset value)) fun _ one => .pure (h.setSocket socket one)
  | rx socket offset =>
    exact .bind ((h socket).step (.storeRx offset value)) fun _ one => .pure (h.setSocket socket one)
  | unmapped => exact .pure h

theorem HaveHistories.writeBurstFrom (h : m.HaveHistories ν) (start : UInt32) (i : Nat) (data : Bytes) :
    Always (m.writeBurstFrom start i data : StateM ν _) (HaveHistories ν) := by
  induction data generalizing m i with
  | nil => exact .pure h
  | cons b bs ih => exact .bind (h.write _ b) fun _ written => ih written (i + 1)

theorem HaveHistories.tick (h : m.HaveHistories ν) (op : Option MemoryOp) :
    Always (m.tick op : StateM ν _) (HaveHistories ν) := by
  have executed : Always (Chip.executeSome m op : StateM ν _) fun r => r.2.HaveHistories ν := by
    match op with
    | none | some (.read addr) => exact .pure h
    | some (.write addr value) => exact .bind (h.write addr value) fun _ written => .pure written
    | some (.burst addr data) => exact .bind (h.writeBurstFrom addr 0 data) fun _ written => .pure written
  exact .bind executed fun _ before => before.poll

end AddressSpace

namespace Chip

variable {model : ChipModel} {config : NetConfig} {c : Chip}

/-- **Every socket of a chip that can be has a history.** -/
theorem Reached.history (h : Reached ν model config c) : c.memory.HaveHistories ν := by
  induction h with
  | powerOn => exact AddressSpace.haveHistories_powerOn model config
  | @access c before asked net ih =>
    cases asked with
    | drive | level | steps | read | dumpCommon | dumpSocket | dumpTx | dumpRx | save => exact ih
    | step =>
      obtain ⟨meets, -⟩ := c.step_meets before.sound.taken net
      have ticked : (c.step net).1.memory = (c.memory.tick (c.decoder.meet c.event?).1 net).1 :=
        congrArg (·.1.memory) meets
      show (c.step net).1.memory.HaveHistories ν
      rw [ticked]
      exact ih.tick _ net
    | write addr value => exact ih.write addr value net
    | load state => exact ih.load state net
    | reset => exact ih.reset net

end Chip

end EtherChip

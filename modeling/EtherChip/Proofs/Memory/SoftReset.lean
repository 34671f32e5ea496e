import EtherChip.Proofs.Memory.GiveBack

/-!
# Resets through the mode register

An operation on the memory is a run of byte writes (`execute_writes`). A byte at address 0 with bit 7
set ends everything that the writes before it did: what is left of the memory is as after power-on but
for the mode register itself, every host socket is given back, and the writes after it meet the memory
that was reset (`writes_softReset`).
-/
namespace EtherChip

/-- The bytes that an operation writes, in order. -/
def MemoryOp.writes : MemoryOp → List (UInt32 × UInt8)
  | .read _ => []
  | .write addr value => [(addr, value)]
  | .burst start data => data.zipIdx.map fun entry => (burstAddr start entry.2, entry.1)

namespace AddressSpace

/-- What a write to the mode register that asks for a reset leaves. -/
def softReset (model : ChipModel) (config : NetConfig) (value : UInt8) : AddressSpace :=
  (powerOn model config).setCommon commonMode (value &&& 0x7F)

theorem held_powerOn (model : ChipModel) (config : NetConfig) : (powerOn model config).held = [] :=
  held_eq_nil _ fun n => by match n with | 0 | 1 | 2 | 3 => rfl

theorem held_softReset (model : ChipModel) (config : NetConfig) (value : UInt8) :
    (softReset model config value).held = [] := held_powerOn model config

variable {ν : Type} [NetHost ν]

/-- Writes bytes, one after the other. -/
def writes (m : AddressSpace) : List (UInt32 × UInt8) → StateM ν AddressSpace
  | [] => return m
  | (addr, value) :: later => do (← m.write addr value).writes later

theorem writes_append (m : AddressSpace) (before later : List (UInt32 × UInt8)) (net : ν) :
    m.writes (before ++ later) net = (m.writes before net).1.writes later (m.writes before net).2 := by
  induction before generalizing m net with
  | nil => rfl
  | cons entry before ih => exact ih _ _

theorem same_writes (m : AddressSpace) (all : List (UInt32 × UInt8)) : Always (m.writes all : StateM ν _) (Same m) := by
  induction all generalizing m with
  | nil => exact .pure ⟨rfl, rfl⟩
  | cons entry later ih =>
    exact .bind (same_write m entry.1 entry.2) fun _ first => (ih _).mono fun _ rest => first.trans rest

theorem writeBurstFrom_writes (m : AddressSpace) (start : UInt32) (i : Nat) (data : Bytes) (net : ν) :
    m.writeBurstFrom start i data net =
      m.writes ((data.zipIdx i).map fun entry => (burstAddr start entry.2, entry.1)) net := by
  induction data generalizing m i net with
  | nil => rfl
  | cons b bs ih => exact ih _ (i + 1) _

/-- Carrying an operation out is writing its bytes. -/
theorem execute_writes (m : AddressSpace) (op : MemoryOp) (net : ν) :
    ((Chip.execute m op net).1.2, (Chip.execute m op net).2) = m.writes op.writes net := by
  match op with
  | .read addr | .write addr value => rfl
  | .burst start data => exact m.writeBurstFrom_writes start 0 data net

/-- A write that asks for a reset. -/
theorem write_softReset (m : AddressSpace) {value : UInt8} (asks : 128 ≤ value) (net : ν) :
    m.write 0 value net = (softReset m.model m.config value, m.giveBack net) := by
  have mode : route 0 = .common commonMode := by decide
  have reset : commonMode = commonMode ∧ asksReset value = true := ⟨rfl, decide_eq_true asks⟩
  unfold write
  rw [mode]
  dsimp only
  rw [if_pos reset, bind_run, reset_run]
  rfl

/-- **A reset among other writes**: what came before it is gone, and what comes after it meets the
memory that was reset. -/
theorem writes_softReset (m : AddressSpace) (before later : List (UInt32 × UInt8)) {value : UInt8}
    (asks : 128 ≤ value) (net : ν) :
    let first := m.writes before net
    m.writes (before ++ (0, value) :: later) net =
      (softReset m.model m.config value).writes later (first.1.giveBack first.2) := by
  intro first
  obtain ⟨model, config⟩ : Same m first.1 := m.same_writes before net
  rw [writes_append, writes, bind_run, write_softReset first.1 asks, model, config]

/-- No socket asks the host for anything after a reset. -/
theorem poll_softReset (model : ChipModel) (config : NetConfig) (value : UInt8) (net : ν) :
    (softReset model config value).poll net = (softReset model config value, net) := rfl

end AddressSpace

end EtherChip

import EtherChip.Dump.Registers
import EtherChip.Proofs.Checked.Ring
import EtherChip.Proofs.Socket.RingCopy

/-!
# Dumps with checked operations

A dump of a ring labels its lines with positions that are computed from line numbers, and a dump of the common
registers reads every byte of a register by index. No start and no length makes the one fail (`dumpRing_eq`), and
every register that has a name lies among the common registers (`dumpCommon_eq`).
-/
namespace EtherChip.Checked

open RingOffset (ofWord)

/-- The lines for bytes that start `line` lines behind a position of the ring. -/
def ringLinesFrom (start : UInt16) (line : Nat) (bs : Bytes) : Option (List (List Char)) := do
  if bs.length = 0 then return []
  else
    let offset := masked (start + UInt16.ofNat (← mul indexSize line Dump.lineSize))
    let later ← ringLinesFrom start (← add indexSize line 1) (bs.drop Dump.lineSize)
    return Dump.ringLine (ofWord offset) (bs.take Dump.lineSize) :: later
termination_by bs.length
decreasing_by
  simp only [List.length_drop, Dump.lineSize]
  omega

def dumpRing (ring : Ring) (start : UInt16) (len : Nat) : Option String := do
  let lines ← ringLinesFrom start 0 (← copyOut ring start len)
  return String.ofList (lines.flatMap (· ++ ['\n']))

/-- A line of the dump of the common registers. -/
def registerLine (cells : Vector UInt8 commonSize) (r : RegisterName) : Option (List Char) := do
  let bytes ← (List.range r.width).mapM fun i => do cells[← add indexSize r.addr i]?
  return Dump.registerLine (fun addr => bytes[addr - r.addr]?.getD 0) r

def dumpCommon (c : Chip) : Option String := do
  let lines ← (Dump.commonNames c.model).mapM (registerLine c.memory.common)
  return c.model.name ++ " common registers\n" ++ String.ofList lines.flatten

/-! ## No operation fails -/

theorem mapM_eq {α β : Type} {f : α → Option β} {g : α → β} {xs : List α} (each : ∀ x ∈ xs, f x = some (g x)) :
    xs.mapM f = some (xs.map g) := by
  induction xs with
  | nil => rfl
  | cons x xs ih =>
    rw [List.mapM_cons]
    exact pass (each x List.mem_cons_self) (pass (ih fun y mem => each y (List.mem_cons_of_mem _ mem)) rfl)

theorem ringLinesFrom_eq (start : UInt16) (line : Nat) {bs : Bytes} (fits : line + bs.length ≤ ringSize) :
    ringLinesFrom start line bs =
      some (Dump.ringLinesFrom ((ofWord start).advance (line * Dump.lineSize)) bs) := by
  induction line, bs using ringLinesFrom.induct with
  | case1 line bs empty =>
    rw [ringLinesFrom, if_pos empty, Dump.ringLinesFrom, if_pos empty]
    rfl
  | case2 line bs more ih =>
    rw [ringLinesFrom, if_neg more, Dump.ringLinesFrom, if_neg more]
    refine pass (mul_eq ?_) (pass (add_eq ?_) (pass (ih (line + 1) ?_) ?_))
    · simp only [Dump.lineSize, ringSize, indexSize] at *
      omega
    · simp only [ringSize, indexSize] at *
      omega
    · rw [List.length_drop, Dump.lineSize]
      omega
    · rw [ofWord_masked, RingOffset.ofWord_add, RingOffset.advance_advance, Nat.succ_mul]
      rfl

theorem dumpRing_eq (ring : Ring) (start : UInt16) (len : Nat) :
    dumpRing ring start len = some (Dump.ring ring (ofWord start) len) := by
  refine pass (copyOut_eq ..) (pass (ringLinesFrom_eq start 0 ?_) ?_)
  · rw [Ring.length_copyOut, Nat.zero_add]
    exact Nat.min_le_right ..
  · rw [Nat.zero_mul, RingOffset.advance_zero]
    rfl

/-- A line shows the bytes of its register and no others. -/
theorem registerLine_congr {read read' : Nat → UInt8} {r : RegisterName}
    (same : ∀ i < r.width, read (r.addr + i) = read' (r.addr + i)) :
    Dump.registerLine read r = Dump.registerLine read' r := by
  unfold Dump.registerLine
  dsimp only
  rw [List.map_congr_left fun i mem => same i (List.mem_range.mp mem)]

theorem registerLine_eq (cells : Vector UInt8 commonSize) {r : RegisterName} (inside : r.addr + r.width ≤ commonSize) :
    registerLine cells r = some (Dump.registerLine (fun i => cells[i]?.getD 0) r) := by
  have each : ∀ i ∈ List.range r.width, (do cells[← add indexSize r.addr i]?) = some (cells[r.addr + i]?.getD 0) := by
    intro i mem
    have bound := List.mem_range.mp mem
    have present : r.addr + i < commonSize := by omega
    refine pass (add_eq ?_) ?_
    · simp only [commonSize, indexSize] at *
      omega
    · rw [Vector.getElem?_eq_getElem present, Option.getD_some]
  refine pass (mapM_eq each) (congrArg some (registerLine_congr fun i bound => ?_))
  rw [Nat.add_sub_cancel_left, List.getElem?_map, List.getElem?_range bound]
  rfl

theorem dumpCommon_eq (c : Chip) : dumpCommon c = some c.dumpCommon := by
  have inside : ∀ r ∈ Dump.commonNames c.model, r.addr + r.width ≤ commonSize := by
    cases c.model <;> decide
  exact pass (mapM_eq fun r mem => registerLine_eq _ (inside r mem)) rfl

end EtherChip.Checked

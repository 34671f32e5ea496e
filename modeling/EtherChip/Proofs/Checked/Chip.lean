import EtherChip.Proofs.Bus.Access
import EtherChip.Proofs.Checked.Dump
import EtherChip.Proofs.Checked.Memory

/-!
# A chip with checked operations

The sampler counts edges in a byte and the chip counts its steps in 64 bits; the rest of what a chip does is
left to its memory, its framing and its dumps. A chip in range (`Ranged`) stays there whatever is asked of it,
and in range no access comes to an end for lack of a result (`fulfils_access`), as long as the steps do not
run out of numbers.
-/
namespace EtherChip.Checked

variable {ν : Type} [NetHost ν]

/-! ## Steps -/

def clock (s : Sampler) (lines : Lines) : Option (Sampler × Lines) := do
  if lines.sck && !s.lastClock then
    return ({ s with incoming := shiftIn s.incoming lines.mosi, outgoing := s.outgoing * 2,
                     edges := ← add UInt8.size s.edges 1 }, lines)
  else return s.clock lines

def sample (s : Sampler) (lines : Lines) : Option (Sampler × Lines) := do
  if lines.selected then
    let (s, driven) ← clock { s with selected := true } lines
    return (Sampler.publish { s with lastClock := lines.sck }, driven)
  else return (s.deselect, lines)

def transact (c : Chip) : Guarded ν Chip := do
  if c.sampler.selected then
    let c := { c with wasSelected := true }
    if !c.sampler.ready then return c
    else
      let (b, sampler) := c.sampler.take
      let (op, decoder) ← feed c.decoder b
      let (answer, memory) ← executeSome c.memory op
      return { c with sampler := sampler.prime answer, decoder := decoder, memory := memory }
  else if c.wasSelected then
    let (_, sampler) := c.sampler.take
    let (op, decoder) ← deselect c.decoder
    let (_, memory) ← executeSome c.memory op
    return { c with sampler := sampler.prime 0, decoder := decoder, memory := memory, wasSelected := false }
  else return c

def step (c : Chip) : Guarded ν Chip := do
  let (sampler, lines) ← sample c.sampler c.lines
  let c ← transact { c with sampler := sampler, lines := lines }
  return { c with memory := ← pollSockets c.memory, steps := ← add UInt64.size c.steps 1 }

/-! ## Accesses -/

def dumpRingOf (e : Option Engine) (ring : Engine → Ring) (start : RingOffset) (len : Nat) : Option (Option String) :=
  match e with
  | none => some none
  | some e => do return some (← dumpRing (ring e) start.toWord len)

def writeAt (c : Chip) (addr : UInt32) (value : UInt8) : Guarded ν Chip :=
  return { c with memory := ← write c.memory addr value }

def loadState (c : Chip) (state : SaveState) : Guarded ν Chip :=
  return { c with sampler := {}, decoder := c.decoder.reset, wasSelected := false,
                  memory := ← loadSpace c.memory state }

def hardReset (c : Chip) : Guarded ν Chip :=
  return { lines := { c.lines with miso := false }, sampler := {}, decoder := c.decoder.reset,
           memory := ← reset c.memory, wasSelected := false, steps := 0 }

/-- The levels, the counter of steps, the registers of a socket and saving have nothing to check. -/
def access (c : Chip) : Access → Guarded ν (Reply × Chip)
  | .step => do return (.delay c.config.stepInterval, ← step c)
  | .read addr => do return (.byte (← read c.memory addr), c)
  | .write addr value => do return (.done, ← writeAt c addr value)
  | .dumpCommon => do return (.dump (some (← dumpCommon c)), c)
  | .dumpTx n start len => do return (.dump (← dumpRingOf (c.socket? n) Engine.tx start len), c)
  | .dumpRx n start len => do return (.dump (← dumpRingOf (c.socket? n) Engine.rx start len), c)
  | .load state => do return (.done, ← loadState c state)
  | .reset => do return (.done, ← hardReset c)
  | asked => call (c.access asked)

/-! ## What keeps a chip in range -/

/-- The sampler has counted less than a byte and has nothing to hand over, and a write burst in progress has kept
no more than it may. -/
structure Ranged (c : Chip) : Prop where
  edges : c.sampler.edges < 8
  taken : c.sampler.ready = false
  kept : c.decoder.kept.length ≤ maxBurst

theorem edges_clock (s : Sampler) (l : Lines) : (s.clock l).1.edges ≤ s.edges + 1 := by
  unfold Sampler.clock
  split
  · exact Nat.le_refl _
  · split <;> exact Nat.le_succ _

theorem edges_publish {s : Sampler} (few : s.edges ≤ 8) : s.publish.edges < 8 := by
  unfold Sampler.publish
  split
  · exact Nat.zero_lt_succ 7
  · omega

/-- The eighth edge of a byte starts the count afresh. -/
theorem edges_step {s : Sampler} (few : s.edges < 8) (l : Lines) : (s.step l).1.edges < 8 := by
  unfold Sampler.step
  split
  · exact edges_publish (Nat.le_trans (edges_clock { s with selected := true } l) few)
  · exact Nat.zero_lt_succ 7

theorem ranged_powerOn (model : ChipModel) (config : NetConfig) : Ranged (.powerOn model config) := by
  cases model <;> exact ⟨Nat.zero_lt_succ 7, rfl, Nat.zero_le _⟩

theorem length_kept_meet {d : Decoder} (fits : d.kept.length ≤ maxBurst) (event : Option BusEvent) :
    (d.meet event).2.kept.length ≤ maxBurst := by
  match event with
  | none => exact fits
  | some (.byte b) => exact length_kept_feed fits b
  | some .release =>
    show d.deselect.2.kept.length ≤ maxBurst
    rw [kept_deselect]
    exact Nat.zero_le _

theorem kept_reset (d : Decoder) : d.reset.kept = [] := by
  cases d <;> rfl

variable {c : Chip}

theorem Ranged.step (h : Ranged c) : Always (c.step : StateM ν Chip) Ranged := by
  intro net
  -- What the bytewise view of a step leaves out is the sampler, which has a step of its own.
  obtain ⟨meets, -, answer, sampler⟩ := c.step_meets h.taken net
  have decoder : (c.step net).1.decoder = (c.decoder.meet c.event?).2 := congrArg (·.1.decoder) meets
  exact {
    edges := by rw [sampler]; exact edges_step h.edges c.lines
    taken := by rw [sampler]; rfl
    kept := by rw [decoder]; exact length_kept_meet h.kept _ }

theorem Ranged.access (h : Ranged c) (asked : Access) :
    Always (c.access asked : StateM ν _) fun after => Ranged after.2 := by
  intro net
  cases asked with
  | drive | level | steps | read | dumpCommon | dumpSocket | dumpTx | dumpRx | save =>
    exact ⟨h.edges, h.taken, h.kept⟩
  | step => exact h.step net
  | write addr value => exact ⟨h.edges, h.taken, h.kept⟩
  | load state | reset =>
    have nothing : c.decoder.reset.kept.length ≤ maxBurst := by
      rw [kept_reset]
      exact Nat.zero_le _
    exact ⟨Nat.zero_lt_succ 7, rfl, nothing⟩

/-! ## Steps that are counted -/

/-- A transaction is not a step. -/
theorem steps_transact (c : Chip) : Always (c.transact : StateM ν Chip) (·.steps = c.steps) := by
  unfold Chip.transact
  split
  · dsimp only
    split
    · exact .pure rfl
    · exact .bind (.any _) fun _ _ => .pure rfl
  · split
    · exact .bind (.any _) fun _ _ => .pure rfl
    · exact .pure rfl

/-- An access counts as one step if it is one, and a reset starts the count afresh. -/
theorem steps_access (c : Chip) (asked : Access) : Always (c.access asked : StateM ν _) fun after =>
    after.2.steps ≤ c.steps + if asked = .step then 1 else 0 := by
  cases asked with
  | drive | level | steps | read | dumpCommon | dumpSocket | dumpTx | dumpRx | save =>
    exact .pure (Nat.le_add_right ..)
  | step =>
    refine .bind (.bind (steps_transact _) fun c' same => .bind (.any _) fun _ _ => .pure ?_) fun _ counted =>
      .pure counted
    exact Nat.le_of_eq (congrArg (· + 1) same)
  | write | load => exact fun _ => Nat.le_add_right ..
  | reset => exact fun _ => Nat.zero_le _

/-! ## No operation fails -/

theorem clock_eq {s : Sampler} (few : s.edges < 8) (lines : Lines) : clock s lines = some (s.clock lines) := by
  unfold clock Sampler.clock
  split
  · exact pass (add_eq (show s.edges + 1 < 256 by omega)) rfl
  · rfl

theorem sample_eq {s : Sampler} (few : s.edges < 8) (lines : Lines) : sample s lines = some (s.step lines) := by
  unfold sample Sampler.step
  split
  · exact pass (clock_eq (s := { s with selected := true }) few lines) rfl
  · rfl

theorem dumpRingOf_eq (e : Option Engine) (ring : Engine → Ring) (start : RingOffset) (len : Nat) :
    dumpRingOf e ring start len = some (e.map fun e => Dump.ring (ring e) start len) := by
  cases e with
  | none => rfl
  | some e =>
    refine pass (dumpRing_eq ..) ?_
    rw [RingOffset.ofWord_toWord]
    rfl

section

variable (bounds : KeepsLengths ν)

include bounds

theorem fulfils_transact (kept : c.decoder.kept.length ≤ maxBurst) :
    Fulfils (transact c : Guarded ν Chip) c.transact := by
  unfold transact Chip.transact
  refine .ite (fun _ => .ite (fun _ => .pure _) fun _ => ?_) fun _ => .ite (fun _ => ?_) fun _ => .pure _
  · exact .pass (feed_eq ..) (.bind (fulfils_executeSome bounds _ (decodable_feed _ _)) fun _ => .pure _)
  · exact .pass (deselect_eq ..) (.bind (fulfils_executeSome bounds _ (decodable_deselect kept)) fun _ => .pure _)

theorem fulfils_step (h : Ranged c) (more : c.steps + 1 < UInt64.size) : Fulfils (step c : Guarded ν Chip) c.step := by
  unfold step Chip.step
  refine .pass (sample_eq h.edges _) ?_
  refine .bind_known (fulfils_transact bounds h.kept) (steps_transact _) fun c' same => ?_
  exact .bind (fulfils_pollSockets bounds _) fun m => .pass (add_eq (same ▸ more)) (.pure _)

theorem fulfils_access (h : Ranged c) (asked : Access) (few : asked = .step → c.steps + 1 < UInt64.size) :
    Fulfils (access c asked : Guarded ν _) (c.access asked) := by
  cases asked with
  | drive | level | steps | save | dumpSocket => exact .call _
  | step => exact .bind (fulfils_step bounds h (few rfl)) fun _ => .pure _
  | read addr => exact .pass (read_eq ..) (.pure _)
  | write addr value =>
    exact .bind (.bind (fulfils_write bounds c.memory addr value) fun _ => .pure _) fun _ => .pure _
  | dumpCommon => exact .pass (dumpCommon_eq c) (.pure _)
  | dumpTx n start len => exact .pass (dumpRingOf_eq ..) (.pure _)
  | dumpRx n start len => exact .pass (dumpRingOf_eq ..) (.pure _)
  | load state => exact .bind (.bind (fulfils_loadSpace c.memory state) fun _ => .pure _) fun _ => .pure _
  | reset => exact .bind (.bind (fulfils_reset c.memory) fun _ => .pure _) fun _ => .pure _

end

end EtherChip.Checked

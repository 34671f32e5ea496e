import EtherChip.Proofs.Bus.Access
import EtherChip.Proofs.Bus.RingBurst
import EtherChip.Proofs.Framing.Selection

/-!
# Transactions are isolated by the select line

A step with the select line high ends whatever was in progress: the framing is idle again and a zero is
sent next (`Within.step`). Two things of the past outlive it, the byte that was being sent and the level
of the output line, and both are overwritten as soon as the chip is selected with the clock low. So two
chips with the same memory, released after whatever each of them was in the middle of, are `Twins`: every
further waveform whose runs start with the clock low shows the same on both (`transactions_isolated`).
-/
namespace EtherChip

open Waveform

namespace Chip

variable {ν : Type} [NetHost ν]

/-- The lines after a step are as the sampler leaves them. -/
theorem step_lines (c : Chip) (net : ν) : (c.step net).1.lines = (c.sampler.step c.lines).2 := by
  unfold step transact
  rcases c.sampler.step c.lines with ⟨s, l⟩
  dsimp only
  split
  · split <;> rfl
  · split <;> rfl

/-! ## Every chip is somewhere in a waveform -/

theorem AtRest.within {c : Chip} (rest : c.AtRest) : ∃ past, c.Within (lastRun past) := ⟨[], within_nil.mpr rest⟩

/-- What happens to the memory does not move a chip in its waveform. -/
theorem Within.withMemory {c : Chip} {run : Waveform} (h : c.Within run) {m : AddressSpace} (same : c.memory.Same m) :
    Within { c with memory := m } run := by
  have model : Chip.model { c with memory := m } = c.model := same.1
  exact ⟨h.sampler, h.wasSelected, by rw [model]; exact h.framing, by rw [model]; exact h.rest⟩

variable {model : ChipModel} {config : NetConfig} {c : Chip}

/-- One access: a step is a step of some waveform, and a load or a reset leaves the chip at rest. -/
theorem Within.access {past : Waveform} (h : c.Within (lastRun past)) (asked : Access) (net : ν) :
    ∃ past', (c.access asked net).1.2.Within (lastRun past') := by
  have idle : c.decoder.reset = .idle c.model := by
    rw [← h.framing]
    cases c.decoder <;> rfl
  cases asked with
  | drive | level | steps | read | dumpCommon | dumpSocket | dumpTx | dumpRx | save =>
    exact ⟨past, h.sampler, h.wasSelected, h.framing, h.rest⟩
  | step => exact ⟨_, (h.step ⟨c.lines.ss, c.lines.sck, c.lines.mosi⟩ net).2⟩
  | write addr value => exact ⟨past, h.withMemory (AddressSpace.same_write c.memory addr value net)⟩
  | load state => exact AtRest.within ⟨⟨rfl, rfl, rfl, idle⟩, rfl, rfl, rfl⟩
  | reset => exact AtRest.within ⟨⟨rfl, rfl, rfl, idle⟩, rfl, rfl, rfl⟩

theorem Reached.within (h : Reached ν model config c) : ∃ past, c.Within (lastRun past) := by
  induction h with
  | powerOn => exact (atRest_powerOn model config).within
  | access _ asked net ih =>
    obtain ⟨past, within⟩ := ih
    exact within.access asked net

/-! ## What is seen of a chip -/

/-- What a step shows: the level of the output line while the chip is selected, and the operation that
is carried out. -/
structure Seen where
  miso : Option Bool
  op : Option MemoryOp
  deriving DecidableEq, Repr

/-- What is seen while a chip is shown a waveform; before each step the world does something to the host. -/
def seen (c : Chip) : List ((ν → ν) × Levels) → ν → List Seen
  | [], _ => []
  | (world, l) :: later, net =>
    let after := (c.present l).step (world net)
    { miso := if l.selected then some after.1.lines.miso else none, op := (c.present l).asked } ::
      after.1.seen later after.2

/-- Two chips in the same place of a waveform, which send the same while they are selected. -/
structure Twins (past : Waveform) (c c' : Chip) : Prop where
  within : c.Within (lastRun past)
  within' : c'.Within (lastRun past)
  same : c.bytewise = c'.bytewise
  /-- What was sent in the run before does not matter. -/
  sends : lastRun past ≠ [] → c.sampler.outgoing = c'.sampler.outgoing ∧ c.lines.miso = c'.lines.miso

variable {past : Waveform} {c' : Chip}

theorem Twins.asked (h : Twins past c c') (now : Levels) : (c.present now).asked = (c'.present now).asked := by
  have decoder : (c.present now).decoder = (c'.present now).decoder := congrArg (·.decoder) h.same
  rw [Chip.asked, Chip.asked, h.within.event now, h.within'.event now, decoder]

/-- The byte whose top bit comes next is the same: it goes on in the middle of a run, and it is the one that
was prepared where a run starts. -/
theorem Twins.sending (h : Twins past c c') : c.sampler.sending = c'.sampler.sending := by
  have edges : c.sampler.edges = c'.sampler.edges := h.within.sampler.edges.trans h.within'.sampler.edges.symm
  have primed : c.sampler.primed = c'.sampler.primed := congrArg (·.answer) h.same
  unfold Sampler.sending
  rw [edges, primed]
  split
  · rfl
  · rename_i some
    refine (h.sends fun released => some ?_).1
    rw [h.within'.sampler.edges, released]
    rfl

/-- **One step.** Where a run starts the clock is low, so that the output line is driven anew. -/
theorem Twins.step (h : Twins past c c') {now : Levels}
    (low : now.selected = true → lastRun past = [] → now.sck = false) (net : ν) :
    let after := (c.present now).step net
    let after' := (c'.present now).step net
    after.2 = after'.2 ∧ Twins (past ++ [now]) after.1 after'.1 ∧
      (now.selected = true → after.1.lines.miso = after'.1.lines.miso) := by
  intro after after'
  obtain ⟨meets, within⟩ := h.within.step now net
  obtain ⟨meets', within'⟩ := h.within'.step now net
  obtain ⟨same, host⟩ : after.1.bytewise = after'.1.bytewise ∧ after.2 = after'.2 :=
    Prod.mk.inj (by rw [meets, meets', h.same])
  -- the sampler decides what is sent, whatever is carried out in the step
  have shows (selected : now.selected = true) :
      after.1.sampler.outgoing = after'.1.sampler.outgoing ∧ after.1.lines.miso = after'.1.lines.miso := by
    obtain ⟨-, -, answer, sampler⟩ := (c.present now).step_meets h.within.sampler.ready net
    obtain ⟨-, -, answer', sampler'⟩ := (c'.present now).step_meets h.within'.sampler.ready net
    obtain ⟨outgoing, miso⟩ := (c.present now).sampler.step_sends (l := (c.present now).lines) selected
    obtain ⟨outgoing', miso'⟩ := (c'.present now).sampler.step_sends (l := (c'.present now).lines) selected
    have sending : (c.present now).sampler.sending = (c'.present now).sampler.sending := h.sending
    have clock : (c.present now).sampler.lastClock = (c'.present now).sampler.lastClock :=
      h.within.sampler.clock.trans h.within'.sampler.clock.symm
    have kept (high : now.sck = true) : c.sampler.outgoing = c'.sampler.outgoing ∧ c.lines.miso = c'.lines.miso :=
      h.sends fun start => by
        rw [low selected start] at high
        exact Bool.false_ne_true high
    have sent : after.1.sampler.outgoing = ((c.present now).sampler.step (c.present now).lines).1.outgoing := by
      rw [sampler]
      rfl
    have sent' : after'.1.sampler.outgoing = ((c'.present now).sampler.step (c'.present now).lines).1.outgoing := by
      rw [sampler']
      rfl
    have line : (c.present now).lines.sck = now.sck := rfl
    have line' : (c'.present now).lines.sck = now.sck := rfl
    rw [sent, sent', step_lines, step_lines, outgoing, outgoing', miso, miso', sending, clock, line, line']
    cases high : now.sck with
    | false => exact ⟨rfl, rfl⟩
    | true =>
      obtain ⟨byte, level⟩ := kept high
      have byte : (c.present now).sampler.outgoing = (c'.present now).sampler.outgoing := byte
      have level : (c.present now).lines.miso = (c'.present now).lines.miso := level
      rw [byte, level]
      exact ⟨rfl, rfl⟩
  refine ⟨host, ⟨within, within', same, fun run => ?_⟩, fun selected => (shows selected).2⟩
  cases selected : now.selected with
  | true => exact shows selected
  | false => exact absurd (lastRun_released past selected) run

/-- The clock is low in the first step of every run of selected steps. -/
def StartsLow (wasSelected : Bool) : Waveform → Prop
  | [] => True
  | now :: w => (now.selected = true → wasSelected = false → now.sck = false) ∧ StartsLow now.selected w

instance decidableStartsLow : (w : Waveform) → (wasSelected : Bool) → Decidable (StartsLow wasSelected w)
  | [], _ => isTrue trivial
  | now :: w, _ => @instDecidableAnd _ _ inferInstance (decidableStartsLow w now.selected)

/-- **Twins show the same** for ever, as long as the runs start with the clock low. -/
theorem Twins.seen (h : Twins past c c') {wasSelected : Bool} (released : lastRun past = [] → wasSelected = false)
    {later : List ((ν → ν) × Levels)} (low : StartsLow wasSelected (later.map Prod.snd)) (net : ν) :
    c.seen later net = c'.seen later net := by
  induction later generalizing past wasSelected c c' net with
  | nil => rfl
  | cons entry later ih =>
    obtain ⟨world, now⟩ := entry
    obtain ⟨first, low⟩ := low
    obtain ⟨host, twins, miso⟩ := h.step (fun selected start => first selected (released start)) (world net)
    have next : lastRun (past ++ [now]) = [] → now.selected = false := by
      intro ended
      cases selected : now.selected with
      | true => simp [lastRun_selected past selected] at ended
      | false => rfl
    rw [Chip.seen, Chip.seen, h.asked now, host, ih twins next low]
    cases selected : now.selected with
    | true => simp [miso selected]
    | false => rfl

/-- A released step of a chip that has collected no write: nothing is carried out, the sockets are polled,
and the chip is at rest with the idle framing. -/
theorem Within.released (h : c.Within (lastRun past)) (unbuffered : c.decoder.kept = []) {now : Levels}
    (released : now.selected = false) (net : ν) :
    let after := (c.present now).step net
    (c.present now).asked = none ∧ (after.1.memory, after.2) = c.memory.poll net ∧ after.1.AtRest := by
  intro after
  have quiet : (c.decoder.meet (Waveform.event? past now)).1 = none := by
    rw [Waveform.event?, if_neg (ne_true_of_eq_false released)]
    split
    · rfl
    · exact Decoder.deselect_of_kept unbuffered
  have asked : (c.present now).asked = none := by
    show ((c.present now).decoder.meet (c.present now).event?).1 = none
    rw [h.event now]
    exact quiet
  obtain ⟨meets, within⟩ := h.step now net
  rw [lastRun_released past released] at within
  have ticked : (after.1.memory, after.2) = c.memory.tick (c.decoder.meet (Waveform.event? past now)).1 net :=
    congrArg (fun r => (r.1.memory, r.2)) meets
  rw [quiet] at ticked
  exact ⟨asked, ticked, within_nil.mp within⟩

/-- **What was clocked before the select line rose never shows again.** Of two chips that can be, with the
same memory, each in the middle of whatever transaction and neither with a collected write: a step with
the select line high carries nothing out, and every waveform after it whose selected runs start with the
clock low shows the same levels and the same operations on both, step by step. -/
theorem transactions_isolated {ν₁ ν₂ : Type} [NetHost ν₁] [NetHost ν₂] (reached : Reached ν₁ model config c)
    (reached' : Reached ν₂ model config c') (memory : c.memory = c'.memory) (unbuffered : c.decoder.kept = [])
    (unbuffered' : c'.decoder.kept = []) {up up' : Levels} (high : up.ss = true) (high' : up'.ss = true) (net : ν)
    (later : List ((ν → ν) × Levels)) (low : StartsLow false (later.map Prod.snd)) :
    let after := (c.present up).step net
    let after' := (c'.present up').step net
    (c.present up).asked = none ∧ (c'.present up').asked = none ∧
    after.1.memory = after'.1.memory ∧ after.2 = after'.2 ∧
    after.1.seen later after.2 = after'.1.seen later after'.2 := by
  intro after after'
  obtain ⟨past, within⟩ := reached.within
  obtain ⟨past', within'⟩ := reached'.within
  obtain ⟨asked, polled, rest⟩ := within.released unbuffered (by rw [Levels.selected, high]; rfl) net
  obtain ⟨asked', polled', rest'⟩ := within'.released unbuffered' (by rw [Levels.selected, high']; rfl) net
  obtain ⟨memory, host⟩ : after.1.memory = after'.1.memory ∧ after.2 = after'.2 :=
    Prod.mk.inj (by rw [polled, polled', memory])
  have twins : Twins [] after.1 after'.1 := by
    refine ⟨within_nil.mpr rest, within_nil.mpr rest', ?_, fun run => absurd rfl run⟩
    have decoder : after.1.decoder = after'.1.decoder := by
      rw [rest.decoder, rest'.decoder, Chip.model, Chip.model, memory]
    have answer : after.1.sampler.primed = after'.1.sampler.primed := rest.answer.trans rest'.answer.symm
    rw [bytewise, bytewise, decoder, memory, answer]
  refine ⟨asked, asked', memory, host, ?_⟩
  rw [← host]
  exact twins.seen (fun _ => rfl) low after.2

/-- The first bits of a byte. -/
def bitsWave (count : Nat) (b : UInt8) : Waveform := ((bitsOf b).take count).flatMap bitWave

/-- A chip that is five bits into the first value of a read. -/
def midRead : Chip :=
  ((powerOn .w5500 {}).follow (selectedWave false [0x00, 0x20, controlByte 1 false] ++ bitsWave 5 0xFF) Flood.flood).1

/-- A chip of which the header has been given up three bits into its second byte. -/
def midHeader : Chip := ((powerOn .w5500 {}).follow (selectedWave true [0x12] ++ bitsWave 3 0xFF) Flood.flood).1

theorem transactions_isolated_midRead :
    midRead.decoder ≠ midHeader.decoder ∧ midRead.sampler.primed ≠ midHeader.sampler.primed ∧
    midRead.sampler.edges = 5 ∧ midHeader.sampler.edges = 3 ∧
    let after := (midRead.present ⟨true, false, false⟩).step Flood.flood
    let after' := (midHeader.present ⟨true, false, false⟩).step Flood.flood
    let later := (transactionWave false [0x00, 0x20, controlByte 1 false, 0x00, 0x00]).map fun l => (id, l)
    after.1.seen later after.2 = after'.1.seen later after'.2 ∧
      (after.1.seen later after.2).filterMap (·.op) = [.read 0x420, .read 0x421, .read 0x422] := by
  have ready := ready_powerOn .w5500 Flood.flood
  have memory : midRead.memory = midHeader.memory :=
    (ready.follow_reads (by decide +kernel)).trans (ready.follow_reads (by decide +kernel)).symm
  have high : (⟨true, false, false⟩ : Levels).ss = true := rfl
  have isolated := transactions_isolated (Reached.powerOn.follow _ Flood.flood) (Reached.powerOn.follow _ Flood.flood)
    memory (by decide +kernel) (by decide +kernel) high high Flood.flood
    ((transactionWave false [0x00, 0x20, controlByte 1 false, 0x00, 0x00]).map fun l => (id, l)) (by decide +kernel)
  exact ⟨by decide +kernel, by decide +kernel, by decide +kernel, by decide +kernel, isolated.2.2.2.2, by decide +kernel⟩

end Chip

end EtherChip

import EtherChip.Proofs.Bus.Transaction
import EtherChip.Proofs.Bus.Waveform

/-!
# The bytewise machine

A chip without its lines: whole bytes and releases arrive, the framing turns them into operations,
and the memory makes one tick for each step. Whatever waveform a chip at rest is shown, it carries
the operations out that this machine carries out on the events of the waveform, at the same steps,
and prepares the same answers (`Chip.Within.follow`). One step is `Chip.Within.step`: the sampler holds
the clock level and the bits of the run so far that make no whole byte.
-/
namespace EtherChip

open Waveform

/-- What the framing makes of a step: the operation that it comes up with, and its state after it. -/
def Decoder.meet (d : Decoder) : Option BusEvent → Option MemoryOp × Decoder
  | none => (none, d)
  | some (.byte b) => d.feed b
  | some .release => d.deselect

/-- The operations that the framing comes up with, one entry for each step. -/
def Decoder.operations (d : Decoder) : List (Option BusEvent) → List (Option MemoryOp)
  | [] => []
  | event :: events => (d.meet event).1 :: (d.meet event).2.operations events

/-- The framing after some events. -/
def Decoder.after (d : Decoder) (events : List (Option BusEvent)) : Decoder :=
  events.foldl (fun d event => (d.meet event).2) d

theorem Decoder.operations_append (d : Decoder) (events later : List (Option BusEvent)) :
    d.operations (events ++ later) = d.operations events ++ (d.after events).operations later := by
  induction events generalizing d with
  | nil => rfl
  | cons event events ih => exact congrArg ((d.meet event).1 :: ·) (ih (d.meet event).2)

/-- The framing never forgets its model. -/
theorem Decoder.deselect_meet (d : Decoder) (event : Option BusEvent) :
    (d.meet event).2.deselect.2 = d.deselect.2 := by
  match event with
  | none => rfl
  | some (.byte b) => cases d <;> rfl
  | some .release => cases d <;> rfl

structure Bytewise where
  decoder : Decoder
  memory : AddressSpace
  /-- What is sent while the next byte arrives. -/
  answer : UInt8

namespace Bytewise

variable {ν : Type} [NetHost ν]

/-- One step: the value that the operation gives is the answer to a byte, and a release leaves none. -/
def meet (m : Bytewise) (event : Option BusEvent) : StateM ν Bytewise := do
  let (op, decoder) := m.decoder.meet event
  let (value, memory) ← Chip.executeSome m.memory op
  let answer := match event with
    | none => m.answer
    | some (.byte _) => value
    | some .release => 0
  return { decoder := decoder, memory := ← memory.poll, answer := answer }

def run (m : Bytewise) : List (Option BusEvent) → StateM ν Bytewise
  | [] => return m
  | event :: events => do (← m.meet event).run events

/-- The answers to the bytes that arrive, in order. -/
def answers (m : Bytewise) : List (Option BusEvent) → ν → Bytes
  | [], _ => []
  | event :: events, net =>
    let after := m.meet event net
    match event with
    | some (.byte _) => after.1.answer :: after.1.answers events after.2
    | _ => after.1.answers events after.2

/-- The memory makes the ticks of the operations. -/
theorem run_memory (m : Bytewise) (events : List (Option BusEvent)) (net : ν) :
    ((m.run events net).1.memory, (m.run events net).2) = m.memory.ticks (m.decoder.operations events) net := by
  induction events generalizing m net with
  | nil => rfl
  | cons event events ih => exact ih (m.meet event net).1 (m.meet event net).2

theorem answers_append (m : Bytewise) (events later : List (Option BusEvent)) (net : ν) :
    m.answers (events ++ later) net =
      m.answers events net ++ (m.run events net).1.answers later (m.run events net).2 := by
  induction events generalizing m net with
  | nil => rfl
  | cons event events ih =>
    match event with
    | none | some .release => exact ih _ _
    | some (.byte b) => exact congrArg _ (ih _ _)

end Bytewise

namespace Chip

variable {ν : Type} [NetHost ν]

/-- The environment sets the input lines. -/
def present (c : Chip) (l : Levels) : Chip :=
  { c with lines := { c.lines with ss := l.ss, sck := l.sck, mosi := l.mosi } }

/-- A chip is shown a waveform, one step for each entry. -/
def follow (c : Chip) : Waveform → StateM ν Chip
  | [] => return c
  | l :: w => do (← (c.present l).step).follow w

/-- What the next step of a chip means to its framing. -/
def event? (c : Chip) : Option BusEvent :=
  let s := (c.sampler.step c.lines).1
  if s.selected then if s.ready then some (.byte s.received) else none
  else if c.wasSelected then some .release
  else none

/-- What the next step of a chip carries out. -/
def asked (c : Chip) : Option MemoryOp := (c.decoder.meet c.event?).1

/-- The operations that a chip carries out while it is shown a waveform, one entry for each step. -/
def operations (c : Chip) : Waveform → ν → List (Option MemoryOp)
  | [], _ => []
  | l :: w, net =>
    let after := (c.present l).step net
    (c.present l).asked :: after.1.operations w after.2

def bytewise (c : Chip) : Bytewise := { decoder := c.decoder, memory := c.memory, answer := c.sampler.primed }

/-- The chip is between transactions, and the bus has been released for at least one step. -/
structure AtRest (c : Chip) : Prop extends c.Between (.idle c.model) where
  wasSelected : c.wasSelected = false
  clock : c.sampler.lastClock = false
  answer : c.sampler.primed = 0

theorem atRest_powerOn (model : ChipModel) (config : NetConfig) : (powerOn model config).AtRest :=
  ⟨⟨rfl, rfl, rfl, rfl⟩, rfl, rfl, rfl⟩

/-! ## One step -/

/-- A deselected step of a chip that was not selected before. -/
theorem step_released {c : Chip} {s : Sampler} {l : Lines} (h : c.sampler.step c.lines = (s, l))
    (selected : s.selected = false) (wasSelected : c.wasSelected = false) (net : ν) :
    c.step net =
      ({ c with sampler := s, lines := l, wasSelected := false, steps := c.steps + 1
                memory := (c.memory.tick none net).1 }, (c.memory.tick none net).2) := by
  unfold step transact
  rw [h]
  simp only [selected, wasSelected]
  rfl

end Chip

namespace Sampler

theorem clock_kept (s : Sampler) (l : Lines) :
    (clock s l).1.primed = s.primed ∧ (clock s l).1.selected = s.selected := by
  unfold clock
  split
  · exact ⟨rfl, rfl⟩
  · split <;> exact ⟨rfl, rfl⟩

theorem publish_kept (s : Sampler) : (publish s).primed = s.primed ∧ (publish s).selected = s.selected := by
  unfold publish
  split <;> exact ⟨rfl, rfl⟩

/-- Looking at the lines does not touch the byte that is sent next, and tells whether the chip is
selected. -/
theorem step_kept (s : Sampler) (l : Lines) : (s.step l).1.primed = s.primed ∧ (s.step l).1.selected = l.selected := by
  unfold step
  split
  next selected =>
    exact ⟨(publish_kept _).1.trans (clock_kept _ _).1,
      (publish_kept _).2.trans ((clock_kept _ _).2.trans selected.symm)⟩
  next released => exact ⟨rfl, ((Bool.not_eq_true _).mp released).symm⟩

theorem prime_take (s : Sampler) (taken : s.ready = false) : s.take.2.prime s.primed = s := by
  rw [take, ← taken]
  rfl

/-- The sampler has seen a run of selected steps, and what it has received has been taken. -/
structure Tracks (s : Sampler) (run : Waveform) : Prop where
  edges : s.edges = (risingBits false run).length % 8
  incoming : s.incoming = ofBits (leftover (risingBits false run))
  clock : s.lastClock = clockAfter false run
  ready : s.ready = false

theorem Tracks.prime {s : Sampler} {run : Waveform} (h : s.Tracks run) (answer : UInt8) : (s.prime answer).Tracks run :=
  ⟨h.edges, h.incoming, h.clock, h.ready⟩

/-- A sampler that is not selected starts afresh. -/
theorem tracks_deselect (s : Sampler) : s.deselect.take.2.Tracks [] := ⟨rfl, rfl, rfl, rfl⟩

variable {s : Sampler} {run : Waveform} {now : Levels} {l : Lines}

/-- A step while the clock stays high. -/
theorem step_high (selected : l.selected = true) (high : l.sck = true) (clock : s.lastClock = true)
    (edges : s.edges < 8) : s.step l = ({ s with selected := true, lastClock := true }, l) := by
  have clocked : Sampler.clock { s with selected := true } l = ({ s with selected := true }, l) := by
    simp [Sampler.clock, high, clock]
  rw [step, if_pos selected, clocked]
  dsimp only
  rw [publish, if_neg (Nat.ne_of_lt edges), high]

/-- A step without a rising edge. -/
theorem Tracks.still (h : s.Tracks run) (selected : l.selected = true) (sck : l.sck = now.sck)
    (still : (now.sck && !clockAfter false run) = false) :
    (s.step l).1.Tracks (run ++ [now]) ∧ (s.step l).1.selected = true := by
  have same : risingBits false (run ++ [now]) = risingBits false run := by
    simp [risingBits_append, risingBits, still]
  have few : s.edges < 8 := by
    rw [h.edges]
    omega
  have after : clockAfter false (run ++ [now]) = l.sck := (clockAfter_concat _ _ _).trans sck.symm
  have stepped : ∃ outgoing, (s.step l).1 = { s with selected := true, outgoing := outgoing, lastClock := l.sck } := by
    cases level : l.sck with
    | false =>
      obtain ⟨outgoing, stepped⟩ := s.step_low selected level few
      exact ⟨outgoing, congrArg Prod.fst stepped⟩
    | true =>
      have clock : s.lastClock = true := by simpa [← h.clock, ← sck, level] using still
      exact ⟨s.outgoing, congrArg Prod.fst (step_high selected level clock few)⟩
  obtain ⟨outgoing, stepped⟩ := stepped
  rw [stepped]
  exact ⟨⟨same ▸ h.edges, same ▸ h.incoming, after.symm, h.ready⟩, rfl⟩

/-- The step of a rising edge: one more bit, or the last one of a byte. -/
theorem Tracks.rise (h : s.Tracks run) (selected : l.selected = true) (sck : l.sck = now.sck)
    (mosi : l.mosi = now.mosi) (rise : (now.sck && !clockAfter false run) = true) :
    let s' := (s.step l).1
    s'.selected = true ∧ s'.take.2.Tracks (run ++ [now]) ∧
      bytes (run ++ [now]) = bytes run ++ if s'.ready then [s'.received] else [] := by
  intro s'
  have more : risingBits false (run ++ [now]) = risingBits false run ++ [now.mosi] := by
    simp [risingBits_append, risingBits, rise]
  obtain ⟨high, clock⟩ : now.sck = true ∧ clockAfter false run = false := by simpa using rise
  have after : clockAfter false (run ++ [now]) = true := (clockAfter_concat _ _ _).trans high
  have assembled : ofBits (leftover (risingBits false run) ++ [now.mosi]) = shiftIn s.incoming l.mosi := by
    rw [ofBits, List.foldl_append, h.incoming, mosi]
    rfl
  have stepped : s' = publish _ := congrArg Prod.fst (s.step_rise selected (sck.trans high) (h.clock.trans clock))
  have edges := h.edges
  by_cases last : s.edges = 7
  · rw [publish, if_pos (by dsimp only; rw [last])] at stepped
    rw [last] at edges
    rw [stepped, bytes, bytes, more, packed_concat_whole _ edges.symm, assembled]
    refine ⟨rfl, ⟨?_, ?_, after.symm, rfl⟩, rfl⟩
    · rw [more, List.length_append, List.length_singleton]
      dsimp only [take]
      omega
    · rw [more, leftover_concat_whole _ edges.symm]
      rfl
  · rw [publish, if_neg (by dsimp only; omega)] at stepped
    rw [edges] at last
    rw [stepped, bytes, bytes, more, packed_concat_part _ last]
    refine ⟨rfl, ⟨?_, ?_, after.symm, rfl⟩, ?_⟩
    · rw [more, List.length_append, List.length_singleton]
      dsimp only [take]
      omega
    · rw [more, leftover_concat_part _ last, assembled]
      rfl
    · simp [h.ready]

/-- **One selected step**: the sampler has a byte ready exactly if the run has one more. -/
theorem Tracks.step (h : s.Tracks run) (selected : l.selected = true) (sck : l.sck = now.sck)
    (mosi : l.mosi = now.mosi) :
    let s' := (s.step l).1
    s'.selected = true ∧ s'.take.2.Tracks (run ++ [now]) ∧
      bytes (run ++ [now]) = bytes run ++ if s'.ready then [s'.received] else [] := by
  cases edge : now.sck && !clockAfter false run with
  | false =>
    obtain ⟨tracks, still⟩ := h.still selected sck edge
    refine ⟨still, ⟨tracks.edges, tracks.incoming, tracks.clock, rfl⟩, ?_⟩
    simp [bytes, risingBits_append, risingBits, edge, tracks.ready]
  | true => exact h.rise selected sck mosi edge

end Sampler

namespace Chip

variable {ν : Type} [NetHost ν]

/-- What a step does, by what it means to the framing. -/
theorem step_meets (c : Chip) (taken : c.sampler.ready = false) (net : ν) :
    let s := (c.sampler.step c.lines).1
    ((c.step net).1.bytewise, (c.step net).2) = c.bytewise.meet c.event? net ∧
    (c.step net).1.wasSelected = s.selected ∧ ∃ answer, (c.step net).1.sampler = s.take.2.prime answer := by
  obtain ⟨primed, level⟩ := c.sampler.step_kept c.lines
  unfold event?
  rcases stepped : c.sampler.step c.lines with ⟨s, l⟩
  rw [stepped] at primed level
  dsimp only at primed level ⊢
  cases selected : s.selected with
  | true =>
    cases ready : s.ready with
    | true =>
      rw [step_fed stepped selected ready net]
      exact ⟨rfl, rfl, _, rfl⟩
    | false =>
      rw [step_waiting stepped selected ready net]
      refine ⟨?_, rfl, s.primed, (s.prime_take ready).symm⟩
      simp only [bytewise, primed]
      rfl
  | false =>
    cases was : c.wasSelected with
    | true =>
      rw [step_deselected stepped selected was net]
      exact ⟨rfl, rfl, _, rfl⟩
    | false =>
      have ready : s.ready = false := by
        rw [Sampler.step, if_neg (by simp [← level, selected])] at stepped
        cases stepped
        exact taken
      rw [step_released stepped selected was net]
      refine ⟨?_, rfl, s.primed, (s.prime_take ready).symm⟩
      simp only [bytewise, primed]
      rfl

/-! ## Runs -/

/-- The chip has seen a run of selected steps, which is empty while the bus is released. -/
structure Within (c : Chip) (run : Waveform) : Prop where
  sampler : c.sampler.Tracks run
  wasSelected : c.wasSelected = !run.isEmpty
  framing : c.decoder.deselect.2 = .idle c.model
  rest : run = [] → c.decoder = .idle c.model ∧ c.sampler.primed = 0

theorem within_nil {c : Chip} : c.Within [] ↔ c.AtRest := by
  constructor
  · intro h
    obtain ⟨decoder, primed⟩ := h.rest rfl
    exact ⟨⟨h.sampler.edges, h.sampler.incoming, h.sampler.ready, decoder⟩, h.wasSelected, h.sampler.clock, primed⟩
  · intro h
    have framing : c.decoder.deselect.2 = .idle c.model := by
      rw [h.decoder]
      cases c.model <;> rfl
    exact ⟨⟨h.edges, h.incoming, h.clock, h.ready⟩, h.wasSelected, framing, fun _ => ⟨h.decoder, h.answer⟩⟩

/-- A step means to the chip what it means in the waveform. -/
theorem Within.event {c : Chip} {past : Waveform} (h : c.Within (lastRun past)) (now : Levels) :
    (c.present now).event? = Waveform.event? past now := by
  have level : ((c.present now).sampler.step (c.present now).lines).1.selected = now.selected :=
    (Sampler.step_kept _ _).2
  unfold event? Waveform.event?
  dsimp only
  rw [level]
  cases selected : now.selected with
  | true =>
    obtain ⟨-, -, more⟩ := h.sampler.step (l := (c.present now).lines) selected rfl rfl
    rw [more, List.getElem?_append_right (Nat.le_refl _), Nat.sub_self]
    change (if (((c.sampler.step (c.present now).lines).1).ready = true) then _ else _) = _
    split <;> rfl
  | false =>
    have was : (c.present now).wasSelected = !(lastRun past).isEmpty := h.wasSelected
    rw [was]
    cases lastRun past <;> rfl

/-- **One step of a chip is one step of the bytewise machine.** -/
theorem Within.step {c : Chip} {past : Waveform} (h : c.Within (lastRun past)) (now : Levels) (net : ν) :
    let after := (c.present now).step net
    (after.1.bytewise, after.2) = c.bytewise.meet (Waveform.event? past now) net ∧
    after.1.Within (lastRun (past ++ [now])) := by
  intro after
  obtain ⟨meets, was, answer, sampler⟩ := (c.present now).step_meets h.sampler.ready net
  rw [h.event now] at meets
  refine ⟨meets, ?_⟩
  have level : ((c.present now).sampler.step (c.present now).lines).1.selected = now.selected :=
    (Sampler.step_kept _ _).2
  have decoder : after.1.decoder = (c.decoder.meet (Waveform.event? past now)).2 :=
    congrArg (fun r => r.1.decoder) meets
  have model : after.1.model = c.model :=
    (congrArg (fun r => r.1.memory.model) meets).trans (AddressSpace.same_tick c.memory _ net).1
  have framing : after.1.decoder.deselect.2 = .idle after.1.model := by
    rw [decoder, Decoder.deselect_meet, model, h.framing]
  cases selected : now.selected with
  | true =>
    obtain ⟨-, tracks, -⟩ := h.sampler.step (l := (c.present now).lines) selected rfl rfl
    rw [lastRun_selected past selected]
    exact {
      sampler := sampler ▸ tracks.prime answer
      wasSelected := by rw [was, level, selected]; simp
      framing := framing
      rest := fun empty => absurd empty (by simp) }
  | false =>
    have deselected : ((c.present now).sampler.step (c.present now).lines).1 = c.sampler.deselect := by
      have released : ¬(c.present now).lines.selected = true := ne_true_of_eq_false selected
      rw [Sampler.step, if_neg released]
      rfl
    rw [lastRun_released past selected]
    exact {
      sampler := by
        rw [sampler, deselected]
        exact c.sampler.tracks_deselect.prime answer
      wasSelected := by rw [was, level, selected]; rfl
      framing := framing
      rest := fun _ => by
        have primed : after.1.sampler.primed = (c.bytewise.meet (Waveform.event? past now) net).1.answer :=
          congrArg (fun r => r.1.answer) meets
        rw [primed, decoder, model, Waveform.event?, if_neg (ne_true_of_eq_false selected)]
        split
        next empty => exact h.rest empty
        next => exact ⟨h.framing, rfl⟩ }

/-- **A chip at rest refines the bytewise machine** on every waveform: what it carries out at each
step is what the framing makes of the events, memory, host and answers are as in the machine, and the
chip is at rest again if the waveform leaves it released. -/
theorem Within.follow {c : Chip} {past : Waveform} (h : c.Within (lastRun past)) (w : Waveform) (net : ν) :
    c.operations w net = c.decoder.operations (eventsAfter past w) ∧
    ((c.follow w net).1.bytewise, (c.follow w net).2) = c.bytewise.run (eventsAfter past w) net ∧
    (c.follow w net).1.Within (lastRun (past ++ w)) := by
  induction w generalizing c past net with
  | nil => exact ⟨rfl, rfl, by rwa [List.append_nil]⟩
  | cons now w ih =>
    obtain ⟨meets, within⟩ := h.step now net
    obtain ⟨operations, refines, after⟩ := ih within ((c.present now).step net).2
    have asked : (c.present now).asked = (c.decoder.meet (Waveform.event? past now)).1 := by
      rw [asked, h.event now]
      rfl
    have decoder : ((c.present now).step net).1.decoder = (c.decoder.meet (Waveform.event? past now)).2 :=
      congrArg (fun r => r.1.decoder) meets
    rw [List.append_assoc] at after
    refine ⟨?_, ?_, after⟩
    · rw [Chip.operations, eventsAfter, Decoder.operations, asked, ← decoder]
      exact congrArg _ operations
    · have run : c.bytewise.run (eventsAfter past (now :: w)) net =
          (c.bytewise.meet (Waveform.event? past now) net).1.run (eventsAfter (past ++ [now]) w)
            (c.bytewise.meet (Waveform.event? past now) net).2 := rfl
      rw [run, ← meets]
      exact refines

end Chip

end EtherChip

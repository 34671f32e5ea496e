import Mathlib.Tactic.IntervalCases
import EtherChip.Proofs.Bus.Bytewise

/-!
# The sampler alone

A sampler that is no part of a chip: its holder sets the input lines and has it look at them, takes the
last byte and prepares the next one, in any order. Of the waveform that the samples make, the sampler
knows the current run only (`Sampler.tracks_calls`), and of the calls between them only what they have
prepared. `follows_waveform` gives from this what is received, what is shown on the output line, and that
a sample may stand any number of times.
-/
namespace EtherChip

open Waveform

/-- Lines of which the inputs have the given levels. -/
def Levels.on (l : Levels) (lines : Lines) : Lines := { lines with ss := l.ss, sck := l.sck, mosi := l.mosi }

namespace Sampler

inductive Call where
  /-- The input lines take these levels, and the sampler looks at them. -/
  | sample (l : Levels)
  | take
  | prime (value : UInt8)
  deriving DecidableEq, Repr

namespace Call

def levels? : Call → Option Levels
  | .sample l => some l
  | _ => none

def primed? : Call → Option UInt8
  | .prime value => some value
  | _ => none

/-- A sampler and the lines that it looks at, after a call. -/
def apply : Call → Sampler × Lines → Sampler × Lines
  | .sample l, (s, lines) => s.step (l.on lines)
  | .take, (s, lines) => (s.take.2, lines)
  | .prime value, (s, lines) => (s.prime value, lines)

/-- The byte that a call takes, if one is ready. -/
def takes (s : Sampler) : Call → Bytes
  | .take => if s.ready then [s.take.1] else []
  | _ => []

/-- A call by somebody who takes what is ready after every sample. -/
def attended : Call → List Call
  | .sample l => [.sample l, .take]
  | call => [call]

/-- A call of which a sample stands some more times. -/
def repeated (more : Nat) : Call → List Call
  | .sample l => List.replicate (more + 1) (.sample l)
  | call => [call]

end Call

/-- What calls leave, from left to right. -/
def after (start : Sampler × Lines) (calls : List Call) : Sampler × Lines :=
  calls.foldl (fun wired call => call.apply wired) start

/-- The bytes that calls take. -/
def taken (start : Sampler × Lines) : List Call → Bytes
  | [] => []
  | call :: calls => call.takes start.1 ++ taken (call.apply start) calls

def attended (calls : List Call) : List Call := calls.flatMap Call.attended

def stretched (calls : List (Call × Nat)) : List Call := calls.flatMap fun (call, more) => call.repeated more

/-- The waveform that calls show to the sampler. -/
def wave (calls : List Call) : Waveform := calls.filterMap Call.levels?

/-- The value that calls leave prepared, which is zero before the first one. -/
def inForce (calls : List Call) : UInt8 := (calls.filterMap Call.primed?).getLastD 0

theorem wave_append (calls later : List Call) : wave (calls ++ later) = wave calls ++ wave later :=
  List.filterMap_append

theorem wave_sample (calls : List Call) (now : Levels) : wave (calls ++ [.sample now]) = wave calls ++ [now] :=
  wave_append calls [.sample now]

theorem after_append (start : Sampler × Lines) (calls later : List Call) :
    after start (calls ++ later) = after (after start calls) later :=
  List.foldl_append

theorem after_sample (start : Sampler × Lines) (calls : List Call) (now : Levels) :
    after start (calls ++ [.sample now]) = (after start calls).1.step (now.on (after start calls).2) :=
  after_append start calls [.sample now]

theorem taken_append (start : Sampler × Lines) (calls later : List Call) :
    taken start (calls ++ later) = taken start calls ++ taken (after start calls) later := by
  induction calls generalizing start with
  | nil => rfl
  | cons call calls ih =>
    rw [List.cons_append, taken, taken, ih, List.append_assoc]
    rfl

theorem wave_attended (calls : List Call) : wave (attended calls) = wave calls := by
  induction calls with
  | nil => rfl
  | cons call calls ih =>
    have first : wave call.attended = wave [call] := by cases call <;> rfl
    rw [attended, List.flatMap_cons, wave_append, first, ← List.singleton_append (l := calls), wave_append]
    exact congrArg _ ih

/-! ## The run -/

theorem step_released (s : Sampler) {l : Lines} (released : l.selected = false) : s.step l = (s.deselect, l) :=
  if_neg (ne_true_of_eq_false released)

theorem clock_take (s : Sampler) (l : Lines) : clock s.take.2 l = ((clock s l).1.take.2, (clock s l).2) := by
  cases high : l.sck <;> cases was : s.lastClock <;> simp [clock, take, high, was]

theorem publish_take (s : Sampler) : (publish s.take.2).take.2 = (publish s).take.2 := by
  by_cases whole : s.edges = 8 <;> simp [publish, take, whole]

/-- What the sampler makes of the lines does not depend on whether the last byte has been taken. -/
theorem step_take (s : Sampler) (l : Lines) : (s.take.2.step l).1.take.2 = (s.step l).1.take.2 := by
  unfold step
  split
  · have clocked := clock_take { s with selected := true } l
    dsimp only [take] at clocked ⊢
    rw [clocked]
    exact publish_take { (clock { s with selected := true } l).1 with lastClock := l.sck }
  · rfl

/-- After any calls the sampler has seen the run in which their waveform ends. -/
theorem tracks_calls (lines : Lines) (calls : List Call) :
    (after ({}, lines) calls).1.take.2.Tracks (lastRun (wave calls)) := by
  induction calls using List.reverseRecOn with
  | nil => exact ⟨rfl, rfl, rfl, rfl⟩
  | append_singleton calls call ih =>
    cases call with
    | take | prime =>
      rw [after_append, wave_append, show wave [_] = [] from rfl, List.append_nil]
      exact ⟨ih.edges, ih.incoming, ih.clock, rfl⟩
    | sample now =>
      rw [after_sample, wave_sample]
      generalize after ({}, lines) calls = wired at ih
      obtain ⟨s, l⟩ := wired
      cases selected : now.selected with
      | true =>
        obtain ⟨-, tracks, -⟩ := ih.step (l := now.on l) selected rfl rfl
        rw [step_take] at tracks
        rw [lastRun_selected _ selected]
        exact tracks
      | false =>
        rw [lastRun_released _ selected, s.step_released (l := now.on l) selected]
        exact s.tracks_deselect

variable {lines : Lines} {calls : List Call}

theorem edges_after : (after ({}, lines) calls).1.edges = edgesAfter (wave calls) % 8 :=
  (tracks_calls lines calls).edges

theorem clock_after : (after ({}, lines) calls).1.lastClock = clockAfter false (lastRun (wave calls)) :=
  (tracks_calls lines calls).clock

theorem clock_after_sample {now : Levels} (selected : now.selected = true) :
    (after ({}, lines) (calls ++ [.sample now])).1.lastClock = now.sck := by
  rw [clock_after, wave_sample, lastRun_selected _ selected, clockAfter_concat]

/-! ## What is received -/

theorem attended_append (calls later : List Call) : attended (calls ++ later) = attended calls ++ attended later :=
  List.flatMap_append

/-- Nothing stays ready if it is taken after every sample. -/
theorem ready_attended (lines : Lines) (calls : List Call) :
    (after ({}, lines) (attended calls)).1.ready = false := by
  induction calls using List.reverseRecOn with
  | nil => rfl
  | append_singleton calls call ih =>
    rw [attended_append, after_append]
    cases call with
    | sample now => rfl
    | take => rfl
    | prime value => exact ih

theorem tracks_attended (lines : Lines) (calls : List Call) :
    (after ({}, lines) (attended calls)).1.Tracks (lastRun (wave calls)) := by
  have tracks := tracks_calls lines (attended calls)
  rw [wave_attended] at tracks
  exact ⟨tracks.edges, tracks.incoming, tracks.clock, ready_attended lines calls⟩

/-- What is taken from now on completes the run that the sampler is in, and then it is the bytes of one
run after the other. -/
theorem Tracks.taken_attended {s : Sampler} {run : Waveform} (h : s.Tracks run) (lines : Lines) (calls : List Call) :
    bytes run ++ taken (s, lines) (attended calls) =
      ((runs (wave calls)).modifyHead (run ++ ·)).flatMap bytes := by
  induction calls generalizing s run lines with
  | nil => simp [attended, taken, runs, wave]
  | cons call calls ih =>
    cases call with
    | take =>
      have idle : (Call.take).takes s = [] := by rw [Call.takes, h.ready]; rfl
      have rest := ih ⟨h.edges, h.incoming, h.clock, rfl⟩ (s := s.take.2) lines
      change bytes run ++ ((Call.take).takes s ++ taken (s.take.2, lines) (attended calls)) = _
      rw [idle, List.nil_append]
      exact rest
    | prime value => exact ih (h.prime value) lines
    | sample now =>
      generalize stepped : s.step (now.on lines) = next
      obtain ⟨s', lines'⟩ := next
      have split : taken (s, lines) (attended (.sample now :: calls)) =
          (if s'.ready then [s'.received] else []) ++ taken (s'.take.2, lines') (attended calls) := by
        change taken (s.step _) (.take :: attended calls) = _
        rw [stepped]
        rfl
      rw [split, show wave (.sample now :: calls) = now :: wave calls from rfl, runs_cons]
      cases selected : now.selected with
      | true =>
        obtain ⟨-, tracks, more⟩ := h.step (l := now.on lines) selected rfl rfl
        rw [stepped] at tracks more
        rw [← List.append_assoc, ← more, ih tracks lines', if_neg (by simpa [Levels.selected] using selected),
          List.modifyHead_modifyHead]
        simp only [Function.comp_def, List.append_assoc, List.singleton_append]
      | false =>
        obtain ⟨rfl, rfl⟩ := Prod.mk.inj (stepped.symm.trans (s.step_released selected))
        have rest := ih s.tracks_deselect (now.on lines)
        have idle : s.deselect.ready = false := h.ready
        rw [idle, if_neg Bool.false_ne_true, if_pos (by simpa [Levels.selected] using selected)]
        rw [modifyHead_runs] at rest
        simpa [bytes, packed, risingBits] using rest

/-- A byte is ready after a sample exactly if it has the eighth edge of a byte. -/
theorem Tracks.ready_step {s : Sampler} {past : Waveform} (h : s.Tracks (lastRun past)) (now : Levels) {l : Lines}
    (ss : l.ss = now.ss) (sck : l.sck = now.sck) (mosi : l.mosi = now.mosi) :
    (s.step l).1.ready = true ↔ rises past now = true ∧ edgesAfter (past ++ [now]) % 8 = 0 := by
  have level : l.selected = now.selected := congrArg not ss
  cases selected : now.selected with
  | true =>
    obtain ⟨-, -, more⟩ := h.step (level.trans selected) sck mosi
    have count := congrArg List.length more
    have edges := edgesAfter_selected past selected
    rw [bytes, bytes, List.length_append, length_packed, length_packed, ← lastRun_selected past selected] at count
    change edgesAfter (past ++ [now]) / 8 = edgesAfter past / 8 + _ at count
    rw [edges] at count ⊢
    cases ready : (s.step l).1.ready <;> cases rise : rises past now <;> simp_all <;> omega
  | false =>
    rw [s.step_released (level.trans selected)]
    simp [deselect, h.ready, rises, selected]

/-! ## What is shown -/

/-- Where the byte that is being sent has come from: the sample `start` is selected with the clock low and
no edge of its byte before it, the samples after it belong to the same byte, and none of them is like it. -/
structure Loads (past : Waveform) (start : Levels) (later : Waveform) : Prop where
  selected : start.selected = true
  low : start.sck = false
  boundary : edgesAfter (past ++ [start]) % 8 = 0
  run : ∀ l ∈ later, l.selected = true
  few : (risingBits false later).length < 8
  latest : ∀ between l, between ++ [l] <+: later → l.sck = false →
    edgesAfter (past ++ start :: (between ++ [l])) % 8 ≠ 0

/-- One more sample of the same byte. -/
theorem Loads.concat {past later : Waveform} {start now : Levels} (h : Loads past start later)
    (selected : now.selected = true) (inside : edgesAfter (past ++ start :: (later ++ [now])) % 8 ≠ 0) :
    Loads past start (later ++ [now]) := by
  have run : ∀ l ∈ later ++ [now], l.selected = true := by
    intro l member
    rcases List.mem_append.mp member with earlier | last
    · exact h.run l earlier
    · rw [List.mem_singleton.mp last]
      exact selected
  refine ⟨h.selected, h.low, h.boundary, run, ?_, fun between l within low => ?_⟩
  · have more : (risingBits false (later ++ [now])).length ≤ (risingBits false later).length + 1 := by
      rw [risingBits_append, List.length_append, risingBits, risingBits, List.append_nil]
      split <;> simp
    have edges := edgesAfter_from past h.selected h.low run
    have := h.boundary
    have := h.few
    omega
  · rcases List.prefix_concat_iff.mp within with whole | earlier
    · rw [whole]
      exact inside
    · exact h.latest between l earlier low

theorem inForce_concat (calls : List Call) (call : Call) :
    inForce (calls ++ [call]) = call.primed?.getD (inForce calls) := by
  cases call <;> simp [inForce, Call.primed?]

theorem primed_after (lines : Lines) (calls : List Call) :
    (after ({}, lines) calls).1.primed = inForce calls := by
  induction calls using List.reverseRecOn with
  | nil => rfl
  | append_singleton calls call ih =>
    rw [after_append, inForce_concat]
    cases call with
    | sample now => exact ((step_kept _ _).1).trans ih
    | take => exact ih
    | prime value => rfl

/-- The byte that is being sent was in force where it has been loaded, and has moved on with each edge. -/
def Sends (s : Sampler) (calls : List Call) : Prop :=
  ∃ past start later, calls = past ++ .sample start :: later ∧ Loads (wave past) start (wave later) ∧
    s.outgoing.toNat = (inForce past).toNat * 2 ^ s.edges % 256

/-- One more call that is no sample. -/
theorem Sends.between {s s' : Sampler} {calls : List Call} {call : Call} (h : s.Sends calls) (quiet : call.levels? = none)
    (outgoing : s'.outgoing = s.outgoing) (edges : s'.edges = s.edges) : s'.Sends (calls ++ [call]) := by
  obtain ⟨past, start, later, rfl, loads, byte⟩ := h
  refine ⟨past, start, later ++ [call], by simp, ?_, by rw [outgoing, edges, byte]⟩
  have same : wave (later ++ [call]) = wave later := by
    rw [wave_append, wave, wave, List.filterMap_cons_none quiet]
    exact List.append_nil _
  rw [same]
  exact loads

/-- One more sample of the same byte. -/
theorem Sends.sample {s s' : Sampler} {calls : List Call} {now : Levels} (h : s.Sends calls) (selected : now.selected = true)
    (inside : edgesAfter (wave calls ++ [now]) % 8 ≠ 0) (some : s'.edges ≠ 0)
    (edges : s'.edges = s.edges + (now.sck && !s.lastClock).toNat)
    (outgoing : s'.outgoing =
      if now.sck then if s.lastClock then s.outgoing else s.outgoing * 2 else s.sending) :
    s'.Sends (calls ++ [.sample now]) := by
  have moved : s'.outgoing.toNat = s.outgoing.toNat * 2 ^ (now.sck && !s.lastClock).toNat % 256 := by
    have byte : s.outgoing.toNat = s.outgoing.toNat * 2 ^ 0 % 256 := by
      rw [Nat.pow_zero, Nat.mul_one, Nat.mod_eq_of_lt (UInt8.toNat_lt _)]
    rw [outgoing]
    cases high : now.sck with
    | true =>
      cases was : s.lastClock with
      | true => exact byte
      | false => exact UInt8.toNat_mul _ _
    | false =>
      have : s.edges ≠ 0 := by simpa [edges, high] using some
      rw [if_neg Bool.false_ne_true, sending, if_neg this]
      exact byte
  obtain ⟨past, start, later, rfl, loads, byte⟩ := h
  have whole : wave (past ++ .sample start :: later) ++ [now] = wave past ++ start :: (wave later ++ [now]) := by
    simp [wave, Call.levels?]
  rw [whole] at inside
  refine ⟨past, start, later ++ [.sample now], by simp, wave_sample later now ▸ loads.concat selected inside, ?_⟩
  rw [moved, byte, edges, Nat.mod_mul_mod, Nat.mul_assoc, Nat.pow_add]

/-- A sample with the clock low at a byte boundary loads what is in force. -/
theorem sends_loaded {s : Sampler} {calls : List Call} {now : Levels} (selected : now.selected = true)
    (low : now.sck = false) (boundary : edgesAfter (wave calls ++ [now]) % 8 = 0) (edges : s.edges = 0)
    (outgoing : s.outgoing = inForce calls) : s.Sends (calls ++ [.sample now]) := by
  refine ⟨calls, now, [], rfl, ⟨selected, low, boundary, by simp [wave], by decide, fun between l within => ?_⟩, ?_⟩
  · exact absurd (List.prefix_nil.mp within) (by simp)
  · rw [outgoing, edges, Nat.pow_zero, Nat.mul_one, Nat.mod_eq_of_lt (UInt8.toNat_lt _)]

/-- One sample of a run that started with the clock low. -/
theorem sends_sample {lines : Lines} {calls : List Call} {now : Levels} (selected : now.selected = true)
    (start : lastRun (wave calls) = [] → now.sck = false)
    (before : lastRun (wave calls) ≠ [] →
      let s := (after ({}, lines) calls).1
      s.edges ≠ 0 ∨ s.lastClock = false → s.Sends calls) :
    let s' := (after ({}, lines) (calls ++ [.sample now])).1
    s'.edges ≠ 0 ∨ s'.lastClock = false → s'.Sends (calls ++ [.sample now]) := by
  intro s' shown
  have edges' : s'.edges = edgesAfter (wave calls ++ [now]) % 8 := wave_sample calls now ▸ edges_after
  have clock' : s'.lastClock = now.sck := clock_after_sample selected
  have stepped : s' = ((after ({}, lines) calls).1.step (now.on (after ({}, lines) calls).2)).1 :=
    congrArg Prod.fst (after_sample _ calls now)
  obtain ⟨sent, -⟩ := step_sends (after ({}, lines) calls).1 (l := now.on (after ({}, lines) calls).2) selected
  rw [← stepped, show (now.on (after ({}, lines) calls).2).sck = now.sck from rfl] at sent
  have primed := primed_after lines calls
  have edges : (after ({}, lines) calls).1.edges = _ := edges_after
  have clock : (after ({}, lines) calls).1.lastClock = _ := clock_after
  have count := edgesAfter_selected (wave calls) selected
  generalize (after ({}, lines) calls).1 = s at before sent primed edges clock
  rw [rises, selected, ← clock, Bool.true_and] at count
  by_cases whole : s'.edges = 0
  · have low : now.sck = false := by simpa [whole, clock'] using shown
    have none : s.edges = 0 := by
      rw [low, Bool.false_and] at count
      rw [edges, ← whole, edges', count]
      rfl
    refine sends_loaded selected low (edges'.symm.trans whole) whole ?_
    rw [sent, low, if_neg Bool.false_ne_true, sending, if_pos none, primed]
  · have running : lastRun (wave calls) ≠ [] := by
      intro first
      rw [start first, Bool.false_and] at count
      rw [edges', count, edgesAfter, first] at whole
      exact whole rfl
    have more : s'.edges = s.edges + (now.sck && !s.lastClock).toNat := by
      have := Bool.toNat_le (now.sck && !s.lastClock)
      omega
    have shown : s.edges ≠ 0 ∨ s.lastClock = false := by
      cases was : s.lastClock with
      | false => exact .inr rfl
      | true => exact .inl (by simpa [more, was] using whole)
    exact (before running shown).sample selected (edges' ▸ whole) whole more sent

/-- In a run that starts with the clock low, what is sent has been loaded as soon as the clock is low or an
edge of its byte is over. -/
theorem sends_calls (lines : Lines) (calls : List Call)
    (low : (lastRun (wave calls)).head?.map Levels.sck = some false) :
    let s := (after ({}, lines) calls).1
    s.edges ≠ 0 ∨ s.lastClock = false → s.Sends calls := by
  induction calls using List.reverseRecOn with
  | nil => cases low
  | append_singleton calls call ih =>
    cases call with
    | take | prime =>
      rw [wave_append, show wave [_] = [] from rfl, List.append_nil] at low
      rw [after_append]
      exact fun shown => (ih low shown).between rfl rfl rfl
    | sample now =>
      rw [wave_sample] at low
      cases selected : now.selected with
      | false => simp [lastRun_released _ selected] at low
      | true =>
        rw [lastRun_selected _ selected] at low
        refine sends_sample selected (fun first => ?_) fun running => ih ?_
        · simpa [first] using low
        · rwa [List.head?_append_of_ne_nil _ running] at low

theorem top_bit (value : UInt8) {k : Nat} (lt : k < 8) :
    128 ≤ value.toNat * 2 ^ k % 256 ↔ value.toNat.testBit (7 - k) = true := by
  rw [Nat.testBit_eq_decide_div_mod_eq, decide_eq_true_eq]
  have := value.toNat_lt
  interval_cases k <;> omega

/-- The level at a selected sample with the clock low is a bit of the byte that has been loaded. -/
theorem miso_low {lines : Lines} {calls : List Call} {now : Levels} (selected : now.selected = true)
    (low : now.sck = false) (start : (lastRun (wave calls ++ [now])).head?.map Levels.sck = some false) :
    ∃ past start later, calls ++ [.sample now] = past ++ .sample start :: later ∧
      Loads (wave past) start (wave later) ∧
      (after ({}, lines) (calls ++ [.sample now])).2.miso =
        (inForce past).toNat.testBit (7 - edgesAfter (wave calls ++ [now]) % 8) := by
  have clock : (after ({}, lines) (calls ++ [.sample now])).1.lastClock = false :=
    (clock_after_sample selected).trans low
  have edges : (after ({}, lines) (calls ++ [.sample now])).1.edges = _ := edges_after
  obtain ⟨past, start, later, split, loads, byte⟩ := sends_calls lines _ (wave_sample calls now ▸ start) (.inr clock)
  refine ⟨past, start, later, split, loads, ?_⟩
  rw [edges, wave_sample, after_sample] at byte
  rw [after_sample]
  generalize after ({}, lines) calls = wired at byte
  obtain ⟨s, l⟩ := wired
  obtain ⟨sent, shown⟩ := s.step_sends (l := now.on l) selected
  rw [show (now.on l).sck = false from low, if_neg Bool.false_ne_true] at sent shown
  rw [shown, ← sent, Bool.eq_iff_iff, decide_eq_true_eq, UInt8.le_iff_toNat_le, byte]
  exact top_bit _ (Nat.mod_lt _ (by decide))

/-- The output line is driven at selected samples with the clock low only. -/
theorem miso_kept {lines : Lines} {calls : List Call} {now : Levels} (quiet : now.sck = true ∨ now.selected = false) :
    (after ({}, lines) (calls ++ [.sample now])).2.miso = (after ({}, lines) calls).2.miso := by
  rw [after_sample]
  generalize after ({}, lines) calls = wired
  obtain ⟨s, l⟩ := wired
  cases selected : now.selected with
  | true =>
    have high : now.sck = true := by simpa [selected] using quiet
    rw [(s.step_sends (l := now.on l) selected).2, show (now.on l).sck = true from high]
    rfl
  | false =>
    rw [s.step_released (l := now.on l) selected]
    rfl

/-! ## Stretching -/

/-- Looking at the same lines once more changes nothing. -/
theorem step_again {s : Sampler} {l : Lines} (few : s.edges < 8) : (s.step l).1.step (s.step l).2 = s.step l := by
  cases selected : l.selected with
  | false =>
    rw [s.step_released selected, s.deselect.step_released selected]
    rfl
  | true =>
    cases high : l.sck with
    | false =>
      have again := step_low_sending { s with selected := true, outgoing := s.sending, lastClock := false }
        (l := { l with miso := 128 ≤ s.sending }) selected high few
      have same : sending { s with selected := true, outgoing := s.sending, lastClock := false } = s.sending := by
        unfold sending
        split <;> rfl
      rw [step_low_sending s selected high few, again, same]
    | true =>
      cases clock : s.lastClock with
      | true =>
        rw [step_high selected high clock few]
        exact step_high selected high rfl few
      | false =>
        rw [step_rise s selected high clock]
        by_cases last : s.edges = 7
        · rw [publish, if_pos (by dsimp only; rw [last])]
          exact step_high selected high rfl (Nat.zero_lt_succ 7)
        · rw [publish, if_neg (by dsimp only; omega)]
          exact step_high selected high rfl (by dsimp only; omega)

theorem step_inputs (s : Sampler) (l : Lines) : (s.step l).2 = { l with miso := (s.step l).2.miso } := by
  unfold step clock
  split
  · dsimp only
    split
    · rfl
    · split <;> rfl
  · rfl

theorem sample_again {now : Levels} {wired : Sampler × Lines} (few : wired.1.edges < 8) :
    (Call.sample now).apply ((Call.sample now).apply wired) = (Call.sample now).apply wired := by
  obtain ⟨s, l⟩ := wired
  have again := step_again (l := now.on l) few
  have same : now.on (s.step (now.on l)).2 = (s.step (now.on l)).2 := by
    rw [step_inputs]
    rfl
  change (s.step (now.on l)).1.step (now.on (s.step (now.on l)).2) = s.step (now.on l)
  rw [same, again]

theorem apply_repeated {wired : Sampler × Lines} (few : wired.1.edges < 8) (call : Call) (more : Nat) :
    after wired (call.repeated more) = call.apply wired ∧ taken wired (call.repeated more) = call.takes wired.1 := by
  cases call with
  | take | prime => exact ⟨rfl, List.append_nil _⟩
  | sample now =>
    induction more with
    | zero => exact ⟨rfl, rfl⟩
    | succ more ih =>
      obtain ⟨same, none⟩ := ih
      have split : (Call.sample now).repeated (more + 1) = (Call.sample now).repeated more ++ [.sample now] :=
        List.replicate_succ'
      rw [split, after_append, taken_append, same, none]
      exact ⟨sample_again few, rfl⟩

/-- Stretching changes neither what is left nor what is taken. -/
theorem after_stretched (lines : Lines) (calls : List (Call × Nat)) :
    after ({}, lines) (stretched calls) = after ({}, lines) (calls.map Prod.fst) ∧
    taken ({}, lines) (stretched calls) = taken ({}, lines) (calls.map Prod.fst) := by
  induction calls using List.reverseRecOn with
  | nil => exact ⟨rfl, rfl⟩
  | append_singleton calls call ih =>
    obtain ⟨same, received⟩ := ih
    obtain ⟨call, more⟩ := call
    have few : (after ({}, lines) (calls.map Prod.fst)).1.edges < 8 := by
      rw [edges_after]
      exact Nat.mod_lt _ (by decide)
    obtain ⟨left, taken⟩ := apply_repeated few call more
    have split : stretched (calls ++ [(call, more)]) = stretched calls ++ call.repeated more := by
      simp [stretched]
    rw [split, List.map_append, after_append, after_append, taken_append, taken_append, same, received, left, taken]
    exact ⟨rfl, congrArg _ (List.append_nil _).symm⟩

/-- **What a new sampler makes of a waveform.** Whoever takes what is ready after every sample receives,
run by run, the data levels at the rising edges packed into bytes, without what is left over at the end
of a run, and a byte is ready at the eighth edge of each. In a run that starts with the clock low, a
sample with the clock low shows the bit of the byte in force when the current byte was loaded that the
edges since have moved to the top, and other samples leave the output line alone. However long samples
are stretched, the same is taken and the same is left. -/
theorem follows_waveform (lines : Lines) (calls : List Call) (now : Levels) (copies : List (Call × Nat)) :
    taken ({}, lines) (attended calls) = (runs (wave calls)).flatMap bytes ∧
    (after ({}, lines) (attended calls)).1.ready = false ∧
    ((after ({}, lines) (attended calls ++ [.sample now])).1.ready = true ↔
      rises (wave calls) now = true ∧ edgesAfter (wave calls ++ [now]) % 8 = 0) ∧
    (now.selected = true → now.sck = false →
      (lastRun (wave calls ++ [now])).head?.map Levels.sck = some false →
      ∃ past start later, calls ++ [.sample now] = past ++ .sample start :: later ∧
        Loads (wave past) start (wave later) ∧
        (after ({}, lines) (calls ++ [.sample now])).2.miso =
          (inForce past).toNat.testBit (7 - edgesAfter (wave calls ++ [now]) % 8)) ∧
    (now.sck = true ∨ now.selected = false →
      (after ({}, lines) (calls ++ [.sample now])).2.miso = (after ({}, lines) calls).2.miso) ∧
    after ({}, lines) (stretched copies) = after ({}, lines) (copies.map Prod.fst) ∧
    taken ({}, lines) (stretched copies) = taken ({}, lines) (copies.map Prod.fst) := by
  refine ⟨?_, ready_attended lines calls, ?_, miso_low, miso_kept, after_stretched lines copies⟩
  · have start : Tracks {} [] := ⟨rfl, rfl, rfl, rfl⟩
    have whole := start.taken_attended lines calls
    rwa [modifyHead_runs] at whole
  · rw [after_sample]
    exact (tracks_attended lines calls).ready_step now rfl rfl rfl

/-- Two bits of a byte, after which another byte is prepared. -/
def reprimed : List Call :=
  [.prime 0xA5, .sample ⟨false, false, true⟩, .sample ⟨false, true, true⟩, .sample ⟨false, false, false⟩,
    .sample ⟨false, true, false⟩, .prime 0x00]

theorem follows_waveform_reprimed :
    (∃ past start later, reprimed ++ [.sample ⟨false, false, true⟩] = past ++ .sample start :: later ∧
      Loads (wave past) start (wave later) ∧
      (after ({}, {}) (reprimed ++ [.sample ⟨false, false, true⟩])).2.miso = (inForce past).toNat.testBit 5) ∧
    (after ({}, {}) (reprimed ++ [.sample ⟨false, false, true⟩])).2.miso = true ∧
    (after ({}, {}) (reprimed ++ [.sample ⟨false, true, true⟩])).2.miso = false := by
  obtain ⟨-, -, -, low, -⟩ := follows_waveform {} reprimed ⟨false, false, true⟩ []
  obtain ⟨-, -, -, -, kept, -⟩ := follows_waveform {} reprimed ⟨false, true, true⟩ []
  exact ⟨low rfl rfl (by decide), by decide, (kept (.inl rfl)).trans (by decide)⟩

end Sampler

end EtherChip

import EtherChip.Proofs.Bus.Bytewise
import EtherChip.Proofs.Socket.Flood

/-!
# Exchanges

A transaction of a bus master shows the chip a waveform (`transactionWave`) whose events are the bytes
of the transaction and one release. While a byte goes to the chip, the answer to the byte before it
comes back: the chip doubles the byte being sent at each rising edge, so the levels that the master
samples are its bits from the top (`topBits`). `refines_bytewise` puts this beside the refinement.
-/
namespace EtherChip

open Waveform

/-- The clock low and then high, with one data level. -/
def bitWave (level : Bool) : Waveform := [⟨false, false, level⟩, ⟨false, true, level⟩]

def byteWave (b : UInt8) : Waveform := (bitsOf b).flatMap bitWave

/-- The last data level that the master sets when it sends some bytes. -/
def lastLevel (mosi : Bool) (bytes : Bytes) : Bool := bytes.foldl (fun _ b => b.toNat.testBit 0) mosi

/-- What a master shows the chip in a transaction, the data line being at some level before it. -/
def transactionWave (mosi : Bool) (bytes : Bytes) : Waveform :=
  (⟨false, false, mosi⟩ :: bytes.flatMap byteWave) ++ [⟨true, false, lastLevel mosi bytes⟩]

/-! ## Events of a transaction -/

theorem risingBits_bitWaves (clock : Bool) (levels : List Bool) (w : Waveform) :
    ∃ clock', risingBits clock (levels.flatMap bitWave ++ w) = levels ++ risingBits clock' w := by
  induction levels generalizing clock with
  | nil => exact ⟨clock, rfl⟩
  | cons level levels ih =>
    obtain ⟨clock', rest⟩ := ih true
    exact ⟨clock', congrArg (level :: ·) rest⟩

theorem selected_byteWave (b : UInt8) : ∀ l ∈ byteWave b, l.selected = true := by
  intro l member
  obtain ⟨level, -, member⟩ := List.mem_flatMap.mp member
  simp only [bitWave, List.mem_cons, List.not_mem_nil, or_false] at member
  rcases member with rfl | rfl <;> rfl

/-- After whole bytes a byte is one more. -/
theorem bytes_byteWave {run : Waveform} (whole : (risingBits false run).length % 8 = 0) (b : UInt8) :
    bytes (run ++ byteWave b) = bytes run ++ [b] ∧ (risingBits false (run ++ byteWave b)).length % 8 = 0 := by
  obtain ⟨clock, bits⟩ := risingBits_bitWaves (clockAfter false run) (bitsOf b) []
  rw [List.append_nil, risingBits, List.append_nil] at bits
  have none : leftover (risingBits false run) = [] := by
    rw [← List.length_eq_zero_iff, length_leftover, whole]
  have eight : (bitsOf b).length = 8 := rfl
  have all : risingBits false (run ++ byteWave b) = risingBits false run ++ bitsOf b := by
    rw [risingBits_append]
    exact congrArg _ bits
  have one : (risingBits false run ++ bitsOf b).length / 8 - (risingBits false run).length / 8 = 1 := by
    rw [List.length_append, eight]
    omega
  constructor
  · rw [bytes, all, packed_append, one, none]
    exact congrArg (bytes run ++ [·]) (ofBits_bitsOf b)
  · rw [all, List.length_append, eight]
    omega

theorem bytes_byteWaves {run : Waveform} (whole : (risingBits false run).length % 8 = 0) (bs : Bytes) :
    bytes (run ++ bs.flatMap byteWave) = bytes run ++ bs := by
  induction bs generalizing run with
  | nil => simp
  | cons b bs ih =>
    obtain ⟨first, whole'⟩ := bytes_byteWave whole b
    rw [List.flatMap_cons, ← List.append_assoc, ih whole', first, List.append_assoc]
    rfl

/-- What a master shows the chip until it releases it. -/
def selectedWave (mosi : Bool) (bytes : Bytes) : Waveform := ⟨false, false, mosi⟩ :: bytes.flatMap byteWave

theorem transactionWave_eq (mosi : Bool) (bs : Bytes) :
    transactionWave mosi bs = selectedWave mosi bs ++ [⟨true, false, lastLevel mosi bs⟩] := rfl

theorem selected_selectedWave (mosi : Bool) (bs : Bytes) : ∀ l ∈ selectedWave mosi bs, l.selected = true := by
  intro l member
  rcases List.mem_cons.mp member with rfl | member
  · rfl
  · obtain ⟨b, -, member⟩ := List.mem_flatMap.mp member
    exact selected_byteWave b l member

theorem bytes_selectedWave (mosi : Bool) (bs : Bytes) : bytes (selectedWave mosi bs) = bs := by
  have none : bytes [⟨false, false, mosi⟩] = [] := by simp [bytes, risingBits, packed]
  have whole : (risingBits false [⟨false, false, mosi⟩]).length % 8 = 0 := rfl
  have all := bytes_byteWaves whole bs
  rwa [none, List.nil_append, List.singleton_append] at all

/-- **A transaction feeds exactly its bytes** to the framing, and then ends. -/
theorem events_transaction {past : Waveform} (released : lastRun past = []) (mosi : Bool) (bs : Bytes) :
    (eventsAfter past (transactionWave mosi bs)).reduceOption = bs.map .byte ++ [.release] := by
  rw [transactionWave_eq, events_run released (selected_selectedWave mosi bs) (List.cons_ne_nil _ _) rfl,
    bytes_selectedWave]

/-! ## Answers of the bytewise machine -/

namespace Bytewise

variable {ν : Type} [NetHost ν]

theorem answer_run_none (m : Bytewise) {events : List (Option BusEvent)} (silent : events.reduceOption = []) (net : ν) :
    (m.run events net).1.answer = m.answer ∧ m.answers events net = [] := by
  induction events generalizing m net with
  | nil => exact ⟨rfl, rfl⟩
  | cons event events ih =>
    match event with
    | none => exact ih _ silent _
    | some event => rw [List.reduceOption_cons_of_some] at silent; exact absurd silent (List.cons_ne_nil _ _)

/-- While one byte arrives, one answer is prepared. -/
theorem answers_byte (m : Bytewise) {events : List (Option BusEvent)} {b : UInt8}
    (one : events.reduceOption = [.byte b]) (net : ν) :
    m.answers events net = [(m.run events net).1.answer] := by
  induction events generalizing m net with
  | nil => exact absurd one (by simp)
  | cons event events ih =>
    match event with
    | none => exact ih _ one _
    | some (.byte b) =>
      rw [List.reduceOption_cons_of_some, List.cons_eq_cons] at one
      obtain ⟨same, none⟩ := (m.meet (some (.byte b)) net).1.answer_run_none one.2 (m.meet (some (.byte b)) net).2
      exact congrArg₂ List.cons same.symm none
    | some .release =>
      rw [List.reduceOption_cons_of_some, List.cons_eq_cons] at one
      exact absurd one.1 (by simp)

end Bytewise

/-! ## What the master samples -/

/-- The top bits of a byte, from the highest on. -/
def topBits : Nat → UInt8 → List Bool
  | 0, _ => []
  | n + 1, out => decide (128 ≤ out) :: topBits n (out * 2)

theorem ofBits_topBits (b : UInt8) : ofBits (topBits 8 b) = b := by
  have all : ∀ n : Fin 256, ofBits (topBits 8 (UInt8.ofNat n)) = UInt8.ofNat n := by decide +kernel
  have := all ⟨b.toNat, b.toNat_lt⟩
  rwa [UInt8.ofNat_toNat] at this

/-- A selected chip that has received some bits of a byte, with the byte whose top bit comes next. -/
structure Chip.Sends (c : Chip) (edges : Nat) (out : UInt8) : Prop where
  selected : c.lines.ss = false
  edges : c.sampler.edges = edges
  ready : c.sampler.ready = false
  sending : c.sampler.sending = out

namespace Chip

variable {ν : Type} [NetHost ν]

theorem follow_cons (c : Chip) (l : Levels) (w : Waveform) (net : ν) :
    c.follow (l :: w) net = ((c.present l).step net).1.follow w ((c.present l).step net).2 := bind_run _ _ _

theorem follow_one (c : Chip) (l : Levels) (net : ν) : c.follow [l] net = (c.present l).step net :=
  (follow_cons c l [] net).trans (Prod.eta _)

theorem follow_append (c : Chip) (w w' : Waveform) (net : ν) :
    c.follow (w ++ w') net = (c.follow w net).1.follow w' (c.follow w net).2 := by
  induction w generalizing c net with
  | nil => rfl
  | cons l w ih => exact ih _ _

/-- The chip with the clock line low. -/
def lowered (c : Chip) : Chip := { c with lines := { c.lines with sck := false } }

/-- Only the levels that a chip is shown count. -/
theorem follow_lowered (c : Chip) {w : Waveform} (nonempty : w ≠ []) (net : ν) :
    c.lowered.follow w net = c.follow w net := by
  cases w with
  | nil => exact absurd rfl nonempty
  | cons l w =>
    have shown : c.lowered.present l = c.present l := rfl
    rw [follow_cons, follow_cons, shown]

/-- The chip shows the next bit while the clock is low. -/
theorem step_shows {c : Chip} {edges : Nat} {out : UInt8} (h : c.Sends edges out) (few : edges < 8) (level : Bool)
    (net : ν) :
    let after := (c.present ⟨false, false, level⟩).step net
    after.1.lines = ⟨false, false, level, 128 ≤ out⟩ ∧
      after.1.sampler = { c.sampler with selected := true, outgoing := out, lastClock := false } := by
  have stepped := c.sampler.step_low_sending (l := (c.present ⟨false, false, level⟩).lines) rfl rfl (h.edges ▸ few)
  rw [h.sending] at stepped
  intro after
  have run : after = _ := step_waiting stepped rfl h.ready net
  rw [run]
  exact ⟨rfl, rfl⟩

/-- The rising edge before the last one of a byte moves the byte being sent one bit on. -/
theorem step_moves {c : Chip} {edges : Nat} (same : c.sampler.edges = edges) (few : edges < 7)
    (ready : c.sampler.ready = false) (clock : c.sampler.lastClock = false) (level : Bool) (net : ν) :
    let after := (c.present ⟨false, true, level⟩).step net
    after.1.Sends (edges + 1) (c.sampler.outgoing * 2) ∧ after.1.lines.mosi = level := by
  have stepped := c.sampler.step_rise (l := (c.present ⟨false, true, level⟩).lines) rfl rfl clock
  rw [Sampler.publish, if_neg (by dsimp only; omega)] at stepped
  intro after
  have run : after = _ := step_waiting stepped rfl ready net
  rw [run]
  refine ⟨⟨rfl, congrArg (· + 1) same, ready, ?_⟩, rfl⟩
  exact if_neg (Nat.succ_ne_zero _)

/-- The last rising edge of a byte. -/
theorem step_completes {c : Chip} (same : c.sampler.edges = 7) (clock : c.sampler.lastClock = false) (level : Bool)
    (net : ν) :
    let after := (c.present ⟨false, true, level⟩).step net
    after.1.Sends 0 after.1.sampler.primed ∧ after.1.lines.mosi = level := by
  have stepped := c.sampler.step_rise (l := (c.present ⟨false, true, level⟩).lines) rfl rfl clock
  rw [Sampler.publish, if_pos (by dsimp only; omega)] at stepped
  intro after
  have run : after = _ := step_fed stepped rfl rfl net
  rw [run]
  exact ⟨⟨rfl, rfl, rfl, rfl⟩, rfl⟩

end Chip

namespace Master

variable {ν : Type}

theorem bind_run {α β : Type} (x : BusM ν α) (f : α → BusM ν β) (c : Chip) (net : ν) :
    (x >>= f) c net = f (x c net).1.1 (x c net).1.2 (x c net).2 := rfl

theorem pure_run {α : Type} (a : α) (c : Chip) (net : ν) : (pure a : BusM ν α) c net = ((a, c), net) := rfl

theorem get_run (c : Chip) (net : ν) : (get : BusM ν Chip) c net = ((c, c), net) := rfl

theorem setLines_run (f : Lines → Lines) (c : Chip) (net : ν) :
    setLines f c net = (((), { c with lines := f c.lines }), net) := rfl

variable [NetHost ν]

theorem step_run (c : Chip) (net : ν) : step c net = (((), (c.step net).1), (c.step net).2) := rfl

/-- A bit is two steps of the chip. -/
theorem transferBit_follows (level : Bool) {c low : Chip} {net net' : ν} (selected : c.lines.ss = false)
    (shown : (c.present ⟨false, false, level⟩).step net = (low, net')) (ss : low.lines.ss = false)
    (mosi : low.lines.mosi = level) :
    transferBit level c net =
      ((low.lines.miso, ((low.present ⟨false, true, level⟩).step net').1),
        ((low.present ⟨false, true, level⟩).step net').2) := by
  have presented : { c with lines := { c.lines with sck := false, mosi := level } } = c.present ⟨false, false, level⟩ := by
    rw [Chip.present, ← selected]
  have raised : { low with lines := { low.lines with sck := true } } = low.present ⟨false, true, level⟩ := by
    rw [Chip.present, ← ss, ← mosi]
  simp only [transferBit, bind_run, setLines_run, step_run, get_run, pure_run, presented, shown, raised]

/-- The bits that complete a byte: the master samples the top bits of the byte that is being sent. -/
theorem bits_follow (levels : List Bool) (last : Bool) {c : Chip} {edges : Nat} {out : UInt8} (h : c.Sends edges out)
    (whole : edges + levels.length = 7) (net : ν) :
    let after := c.follow ((levels ++ [last]).flatMap bitWave) net
    (levels ++ [last]).mapM transferBit c net = ((topBits (levels.length + 1) out, after.1), after.2) ∧
      after.1.Sends 0 after.1.sampler.primed ∧ after.1.lines.mosi = last := by
  have few : edges < 8 := by omega
  induction levels generalizing c edges out net with
  | nil =>
    rcases shown : (c.present ⟨false, false, last⟩).step net with ⟨low, net'⟩
    obtain ⟨lines, sampler⟩ := Chip.step_shows h few last net
    rw [shown] at lines sampler
    dsimp only at lines sampler
    have bit := transferBit_follows last h.selected shown (by rw [lines]) (by rw [lines])
    have run : c.follow (([] ++ [last]).flatMap bitWave) net = (low.present ⟨false, true, last⟩).step net' := by
      change c.follow [⟨false, false, last⟩, ⟨false, true, last⟩] net = _
      rw [Chip.follow_cons, shown, Chip.follow_one]
    have completes := Chip.step_completes (c := low) (by rw [sampler]; exact h.edges.trans whole) (by rw [sampler]) last net'
    rw [run]
    refine ⟨?_, completes⟩
    simp only [List.nil_append, List.mapM_cons, List.mapM_nil, bind_run, pure_run, bit, lines]
    rfl
  | cons level levels ih =>
    rcases shown : (c.present ⟨false, false, level⟩).step net with ⟨low, net'⟩
    obtain ⟨lines, sampler⟩ := Chip.step_shows h few level net
    rw [shown] at lines sampler
    dsimp only at lines sampler
    rw [List.length_cons] at whole
    have bit := transferBit_follows level h.selected shown (by rw [lines]) (by rw [lines])
    have same : low.sampler.edges = edges := by rw [sampler]; exact h.edges
    obtain ⟨moved, -⟩ := Chip.step_moves same (by omega) (by rw [sampler]; exact h.ready) (by rw [sampler]) level net'
    rw [sampler] at moved
    obtain ⟨rest, sends, mosi⟩ := ih moved (by omega) ((low.present ⟨false, true, level⟩).step net').2 (by omega)
    have run : c.follow ((level :: levels ++ [last]).flatMap bitWave) net =
        ((low.present ⟨false, true, level⟩).step net').1.follow ((levels ++ [last]).flatMap bitWave)
          ((low.present ⟨false, true, level⟩).step net').2 := by
      change c.follow (⟨false, false, level⟩ :: ⟨false, true, level⟩ :: (levels ++ [last]).flatMap bitWave) net = _
      rw [Chip.follow_cons, shown, Chip.follow_cons]
    rw [run]
    refine ⟨?_, sends, mosi⟩
    simp only [List.cons_append, List.mapM_cons, bind_run, pure_run, bit, rest, lines]
    rfl

/-- A byte goes to the chip, and the one that the chip has ready comes back. -/
theorem transfer_follows (b : UInt8) {c : Chip} {out : UInt8} (h : c.Sends 0 out) (net : ν) :
    let after := c.follow (byteWave b) net
    transfer b c net = ((out, after.1.lowered), after.2) ∧
      after.1.Sends 0 after.1.sampler.primed ∧ after.1.lines.mosi = b.toNat.testBit 0 := by
  have split : [7, 6, 5, 4, 3, 2, 1].map b.toNat.testBit ++ [b.toNat.testBit 0] = bitsOf b := rfl
  have eight : ([7, 6, 5, 4, 3, 2, 1].map b.toNat.testBit).length + 1 = 8 := rfl
  obtain ⟨bits, sends⟩ := bits_follow ([7, 6, 5, 4, 3, 2, 1].map b.toNat.testBit) (b.toNat.testBit 0) h rfl net
  rw [split, ← byteWave] at bits sends
  rw [eight] at bits
  refine ⟨?_, sends⟩
  simp only [transfer, bind_run, pure_run, setLines_run, bits, ofBits_topBits, Chip.lowered]

/-- The bytes that a chip sends while it receives some. -/
def sent (c : Chip) : Bytes → ν → Bytes
  | [], _ => []
  | b :: bs, net =>
    let after := c.follow (byteWave b) net
    c.sampler.primed :: sent after.1 bs after.2

theorem sent_lowered (c : Chip) (bs : Bytes) (net : ν) : sent c.lowered bs net = sent c bs net := by
  cases bs with
  | nil => rfl
  | cons b bs =>
    have nonempty : byteWave b ≠ [] := List.cons_ne_nil _ _
    rw [sent, sent, c.follow_lowered nonempty]
    rfl

/-- Only the clock line may be another one than in the chip that is shown the waveform. -/
theorem transfers_follow (bs : Bytes) {c : Chip} (h : c.Sends 0 c.sampler.primed) (net : ν) :
    let after := c.follow (bs.flatMap byteWave) net
    ∃ c', bs.mapM transfer c net = ((sent c bs net, c'), after.2) ∧ c'.lowered = after.1.lowered ∧
      after.1.lines.mosi = lastLevel c.lines.mosi bs := by
  induction bs generalizing c net with
  | nil => exact ⟨c, rfl, rfl, rfl⟩
  | cons b bs ih =>
    obtain ⟨first, sends, mosi⟩ := transfer_follows b h net
    rcases went : c.follow (byteWave b) net with ⟨c₁, net₁⟩
    rw [went] at first sends mosi
    dsimp only at first sends mosi
    obtain ⟨c', rest, same, last⟩ := ih (c := c₁.lowered) ⟨sends.selected, sends.edges, sends.ready, sends.sending⟩ net₁
    have run : c.follow ((b :: bs).flatMap byteWave) net = c₁.follow (bs.flatMap byteWave) net₁ := by
      rw [List.flatMap_cons, Chip.follow_append, went]
    have sent : sent c (b :: bs) net = c.sampler.primed :: sent c₁ bs net₁ := by
      rw [Master.sent, went]
    have kept : (c₁.lowered.follow (bs.flatMap byteWave) net₁).1.lowered =
          (c₁.follow (bs.flatMap byteWave) net₁).1.lowered ∧
        (c₁.lowered.follow (bs.flatMap byteWave) net₁).2 = (c₁.follow (bs.flatMap byteWave) net₁).2 := by
      by_cases nonempty : bs.flatMap byteWave = []
      · rw [nonempty]
        exact ⟨rfl, rfl⟩
      · rw [c₁.follow_lowered nonempty]
        exact ⟨rfl, rfl⟩
    have level : (c₁.follow (bs.flatMap byteWave) net₁).1.lines.mosi = lastLevel c.lines.mosi (b :: bs) := by
      have start : c₁.lowered.lines.mosi = b.toNat.testBit 0 := mosi
      rw [start] at last
      exact (congrArg (·.lines.mosi) kept.1).symm.trans last
    rw [run, sent]
    refine ⟨c', ?_, same.trans kept.1, level⟩
    simp only [List.mapM_cons, bind_run, pure_run, first, rest, sent_lowered, kept.2]

/-- **A transaction shows the chip its waveform**, and gives what the chip sends meanwhile. -/
theorem transaction_follows (bs : Bytes) {c : Chip} (edges : c.sampler.edges = 0) (ready : c.sampler.ready = false)
    (net : ν) :
    let selected := (c.present ⟨false, false, c.lines.mosi⟩).step net
    let after := c.follow (transactionWave c.lines.mosi bs) net
    transaction bs c net = ((sent selected.1 bs selected.2, after.1), after.2) := by
  rcases started : (c.present ⟨false, false, c.lines.mosi⟩).step net with ⟨c₁, net₁⟩
  have shown : (c.present ⟨false, false, c.lines.mosi⟩).Sends 0 c.sampler.primed := ⟨rfl, edges, ready, if_pos edges⟩
  obtain ⟨lines, sampler⟩ := Chip.step_shows shown (by decide) c.lines.mosi net
  change ((c.present ⟨false, false, c.lines.mosi⟩).step net).1.lines = _ at lines
  change ((c.present ⟨false, false, c.lines.mosi⟩).step net).1.sampler = _ at sampler
  rw [started] at lines sampler
  have sends : c₁.Sends 0 c₁.sampler.primed := by
    refine ⟨by rw [lines], ?_, ?_, ?_⟩ <;> rw [sampler]
    · exact edges
    · exact ready
    · exact if_pos edges
  obtain ⟨c₂, transfers, same, mosi⟩ := transfers_follow bs sends net₁
  have level : c₁.lines.mosi = c.lines.mosi := by rw [lines]
  rw [level] at mosi
  have run : c.follow (transactionWave c.lines.mosi bs) net =
      ((c₁.follow (bs.flatMap byteWave) net₁).1.present ⟨true, false, lastLevel c.lines.mosi bs⟩).step
        (c₁.follow (bs.flatMap byteWave) net₁).2 := by
    rw [transactionWave, List.cons_append, Chip.follow_cons, started, Chip.follow_append, Chip.follow_one]
  have ended : { c₂ with lines := { c₂.lines with ss := true, sck := false } } =
      (c₁.follow (bs.flatMap byteWave) net₁).1.present ⟨true, false, lastLevel c.lines.mosi bs⟩ := by
    have mosi₂ : c₂.lines.mosi = lastLevel c.lines.mosi bs := (congrArg (·.lines.mosi) same).trans mosi
    have present : c₂.present ⟨true, false, c₂.lines.mosi⟩ =
        (c₁.follow (bs.flatMap byteWave) net₁).1.present ⟨true, false, c₂.lines.mosi⟩ :=
      congrArg (·.present ⟨true, false, c₂.lines.mosi⟩) same
    rw [← mosi₂, ← present]
    rfl
  have selected : { c with lines := { c.lines with ss := false, sck := false } } =
      c.present ⟨false, false, c.lines.mosi⟩ := rfl
  simp only [transaction, select, deselect, bind_run, setLines_run, step_run, pure_run, selected, started, transfers,
    ended, run]

end Master

namespace Chip

variable {ν : Type} [NetHost ν]

/-- What a chip sends is its answer to the byte before, from the one that it has ready on. -/
theorem sent_answers (bs : Bytes) {c : Chip} {past : Waveform} (h : c.Within (lastRun past))
    (whole : (risingBits false (lastRun past)).length % 8 = 0) (net : ν) :
    Master.sent c bs net =
      (c.bytewise.answer :: c.bytewise.answers (eventsAfter past (bs.flatMap byteWave)) net).take bs.length := by
  induction bs generalizing c past net with
  | nil => rfl
  | cons b bs ih =>
    obtain ⟨one, whole'⟩ := bytes_byteWave whole b
    obtain ⟨-, refines, within⟩ := h.follow (byteWave b) net
    have event : (eventsAfter past (byteWave b)).reduceOption = [.byte b] := by
      have added := events_selected past (selected_byteWave b)
      rw [one, List.map_append] at added
      exact (List.append_cancel_left added).symm
    rw [← lastRun_append past (selected_byteWave b)] at whole'
    have rest := ih within whole' (c.follow (byteWave b) net).2
    have answered := c.bytewise.answers_byte event net
    rw [List.flatMap_cons, eventsAfter_append, Bytewise.answers_append, answered, ← refines, Master.sent, rest,
      List.length_cons, List.take_succ_cons, List.singleton_append]
    dsimp only
    rfl

/-- No byte is complete at a deselected step. -/
theorem answers_released (m : Bytewise) (past : Waveform) {l : Levels} (released : l.selected = false) (net : ν) :
    m.answers (eventsAfter past [l]) net = [] := by
  rw [eventsAfter, eventsAfter, Waveform.event?, if_neg (ne_true_of_eq_false released)]
  split <;> rfl

/-- What a chip sends in a transaction. -/
theorem Within.sent_transaction {c : Chip} (h : c.Within (lastRun [])) (bs : Bytes) (net : ν) :
    let selected := (c.present ⟨false, false, c.lines.mosi⟩).step net
    Master.sent selected.1 bs selected.2 =
      (c.sampler.primed :: c.bytewise.answers (events (transactionWave c.lines.mosi bs)) net).take bs.length := by
  intro selected
  obtain ⟨-, refines, within⟩ := h.follow [⟨false, false, c.lines.mosi⟩] net
  have start : eventsAfter [] [⟨false, false, c.lines.mosi⟩] = [none] := by
    simp [eventsAfter, Waveform.event?, lastRun, bytes, risingBits, packed, Levels.selected]
  have went : c.follow [⟨false, false, c.lines.mosi⟩] net = selected := follow_one _ _ _
  have whole : (risingBits false (lastRun ([] ++ [⟨false, false, c.lines.mosi⟩]))).length % 8 = 0 := rfl
  rw [went, start] at refines
  rw [went] at within
  have answer : selected.1.bytewise.answer = c.sampler.primed := congrArg (fun r => r.1.answer) refines
  have split : events (transactionWave c.lines.mosi bs) =
      [none] ++ (eventsAfter ([] ++ [⟨false, false, c.lines.mosi⟩]) (bs.flatMap byteWave) ++
        eventsAfter ([] ++ [⟨false, false, c.lines.mosi⟩] ++ bs.flatMap byteWave)
          [⟨true, false, lastLevel c.lines.mosi bs⟩]) := by
    rw [← start, ← eventsAfter_append, ← eventsAfter_append]
    rfl
  have silent : c.bytewise.answers [none] net = [] := rfl
  rw [split, Bytewise.answers_append, silent, ← refines, Bytewise.answers_append, answers_released _ _ rfl,
    List.append_nil, List.nil_append, sent_answers bs within whole, answer]

/-- A transaction of a chip at rest, on the bytewise machine. -/
theorem AtRest.transaction {c : Chip} (rest : c.AtRest) (bs : Bytes) (net : ν) :
    let w := transactionWave c.lines.mosi bs
    let ended := Master.transaction bs c net
    (ended.1.2, ended.2) = c.follow w net ∧
    (ended.1.2.bytewise, ended.2) = c.bytewise.run (events w) net ∧
    ended.1.1 = (0 :: c.bytewise.answers (events w) net).take bs.length ∧ ended.1.2.AtRest := by
  intro w ended
  have within : c.Within (lastRun []) := within_nil.mpr rest
  have follows := Master.transaction_follows bs rest.edges rest.ready net
  have chip : (ended.1.2, ended.2) = c.follow w net := congrArg (fun r => (r.1.2, r.2)) follows
  obtain ⟨-, refines, after⟩ := within.follow w net
  have released : lastRun ([] ++ w) = [] := by
    rw [List.nil_append]
    exact lastRun_released _ rfl
  rw [← chip, released] at after
  rw [← chip] at refines
  refine ⟨chip, refines, ?_, within_nil.mp after⟩
  rw [← rest.answer]
  exact (congrArg (fun r => r.1.1) follows).trans (within.sent_transaction bs net)

/-- **A chip refines the bytewise machine.** A chip at rest that is shown any waveform carries out, step
by step, the operations that the framing makes of the events of the waveform, and nothing else; memory,
host and answers are those of the machine, and the chip is at rest again whenever the bus is released.
A transaction is such a waveform: its events are its bytes and one release, and what comes back is zero
and then the answer to each byte while the next one goes out. -/
theorem refines_bytewise (c : Chip) (rest : c.AtRest) :
    (∀ (w : Waveform) (net : ν),
      let after := c.follow w net
      c.operations w net = c.decoder.operations (events w) ∧
      (after.1.memory, after.2) = c.memory.ticks (c.operations w net) net ∧
      (after.1.bytewise, after.2) = c.bytewise.run (events w) net ∧
      (lastRun w = [] → after.1.AtRest)) ∧
    ∀ (bs : Bytes) (net : ν),
      let w := transactionWave c.lines.mosi bs
      let ended := Master.transaction bs c net
      (ended.1.2, ended.2) = c.follow w net ∧
      (events w).reduceOption = bs.map .byte ++ [.release] ∧
      ended.1.1 = (0 :: c.bytewise.answers (events w) net).take bs.length := by
  have within : c.Within (lastRun []) := within_nil.mpr rest
  constructor
  · intro w net after
    obtain ⟨operations, refines, ended⟩ := within.follow w net
    refine ⟨operations, ?_, refines, fun released => ?_⟩
    · rw [operations]
      exact (congrArg (fun r => (r.1.memory, r.2)) refines).trans (c.bytewise.run_memory _ net)
    · rw [List.nil_append, released] at ended
      exact within_nil.mp ended
  · intro bs net w ended
    obtain ⟨chip, -, answers, -⟩ := rest.transaction bs net
    exact ⟨chip, events_transaction rfl _ bs, answers⟩

/-- A write frame that is released one edge before its last byte is complete. -/
def cutFrame : Waveform :=
  (⟨false, false, false⟩ :: [writeOpcode, 0x00, 0x01].flatMap byteWave) ++ (byteWave 0xFF).take 15 ++
    [⟨true, true, true⟩]

theorem refines_bytewise_powerOn :
    (powerOn .w5100 {}).AtRest ∧
    (powerOn .w5100 {}).operations cutFrame Flood.flood = List.replicate 65 none ∧
    (Master.transaction [readOpcode, 0x00, 0x17, 0x00] (powerOn .w5100 {}) Flood.flood).1.1 = [0, 0, 0, 7] := by
  have rest := atRest_powerOn .w5100 {}
  refine ⟨rest, ?_, ?_⟩
  · rw [((refines_bytewise _ rest).1 cutFrame Flood.flood).1]
    decide +kernel
  · rw [((refines_bytewise _ rest).2 [readOpcode, 0x00, 0x17, 0x00] Flood.flood).2.2]
    decide +kernel

end Chip

end EtherChip

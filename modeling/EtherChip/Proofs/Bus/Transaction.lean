import EtherChip.Bus.Master
import EtherChip.Proofs.Memory.Tick

/-!
# Transactions on the bus

What a master does to a chip between transactions is a run of ticks of the chip's memory, one for
each step of the chip, and the framing alone decides which operations are carried out and when
(`transactionOps`). `Performs` says so of a part of a transaction, with what the bus side of the chip
is before and after it, and is closed under sequencing: a bit is two steps, a byte eight bits, and
the eighth rising edge feeds the byte to the framing.
-/
namespace EtherChip

/-- A byte is assembled from its bits. -/
theorem ofBits_bitsOf (b : UInt8) : ofBits (bitsOf b) = b := by
  have all : ∀ n : Fin 256, ofBits (bitsOf (UInt8.ofNat n)) = UInt8.ofNat n := by decide +kernel
  have := all ⟨b.toNat, b.toNat_lt⟩
  rwa [UInt8.ofNat_toNat] at this

/-- A control byte says which block it was made for, and in which direction. -/
theorem control_block {block : UInt8} (known : block.toNat < 32) (write : Bool) :
    selectedBlock (controlByte block write) = block ∧ asksWrite (controlByte block write) = write := by
  have all : ∀ (n : Fin 32) (write : Bool), selectedBlock (controlByte (UInt8.ofNat n) write) = UInt8.ofNat n ∧
      asksWrite (controlByte (UInt8.ofNat n) write) = write := by decide +kernel
  have := all ⟨block.toNat, known⟩ write
  rwa [UInt8.ofNat_toNat] at this

/-- Block 0 is the flat memory. -/
theorem blockAddr_flat (addr : UInt16) : blockAddr 0 addr = addr.toUInt32 := by
  have ring : isRingBlock 0 = false := rfl
  have base : blockBase 0 = 0 := rfl
  rw [blockAddr, ring, base, UInt32.zero_add, if_neg Bool.false_ne_true, ← UInt32.toNat_inj,
    UInt16.toNat_toUInt32, UInt32.toNat_ofNat']
  have := addr.toNat_lt
  omega

/-- Nothing of a transaction has been received, and the framing is in the given state. -/
structure Chip.Between (c : Chip) (d : Decoder) : Prop where
  edges : c.sampler.edges = 0
  incoming : c.sampler.incoming = 0
  ready : c.sampler.ready = false
  decoder : c.decoder = d

/-- The chip is between transactions. -/
def Chip.BusIdle (c : Chip) : Prop := c.Between (.idle c.model)

/-- A selected chip has received some bits of a byte. -/
structure Chip.Receiving (c : Chip) (edges : Nat) (incoming : UInt8) (d : Decoder) : Prop where
  selected : c.lines.selected = true
  wasSelected : c.wasSelected = true
  edges : c.sampler.edges = edges
  incoming : c.sampler.incoming = incoming
  ready : c.sampler.ready = false
  decoder : c.decoder = d

namespace Sampler

/-- The byte whose top bit the chip shows while the clock is low. -/
def sending (s : Sampler) : UInt8 := if s.edges = 0 then s.primed else s.outgoing

/-- A step while the chip is selected and the clock is low. -/
theorem step_low_sending (s : Sampler) {l : Lines} (selected : l.selected = true) (low : l.sck = false)
    (edges : s.edges < 8) :
    s.step l =
      ({ s with selected := true, outgoing := s.sending, lastClock := false }, { l with miso := 128 ≤ s.sending }) := by
  have clocked : clock { s with selected := true } l =
      ({ s with selected := true, outgoing := s.sending }, { l with miso := 128 ≤ s.sending }) := by
    rw [clock, if_neg (by simp [low]), if_pos (by simp [low])]
    rfl
  rw [step, if_pos selected, clocked]
  dsimp only
  rw [publish, if_neg (Nat.ne_of_lt edges), low]

theorem step_low (s : Sampler) {l : Lines} (selected : l.selected = true) (low : l.sck = false)
    (edges : s.edges < 8) :
    ∃ outgoing, s.step l =
      ({ s with selected := true, outgoing := outgoing, lastClock := false },
        { l with miso := 128 ≤ outgoing }) :=
  ⟨_, s.step_low_sending selected low edges⟩

/-- The step of a rising clock edge. -/
theorem step_rise (s : Sampler) {l : Lines} (selected : l.selected = true) (high : l.sck = true)
    (clock : s.lastClock = false) :
    s.step l = (publish { s with selected := true, incoming := shiftIn s.incoming l.mosi
                                 outgoing := s.outgoing * 2, edges := s.edges + 1, lastClock := true }, l) := by
  have clocked : Sampler.clock { s with selected := true } l =
      ({ s with selected := true, incoming := shiftIn s.incoming l.mosi, outgoing := s.outgoing * 2
                edges := s.edges + 1 }, l) := by
    simp [Sampler.clock, high, clock]
  rw [step, if_pos selected, clocked, high]

/-- What a selected step sends and shows: a rising edge moves on to the next bit, and a low clock drives
the output line. -/
theorem step_sends (s : Sampler) {l : Lines} (selected : l.selected = true) :
    (s.step l).1.outgoing =
      (if l.sck then if s.lastClock then s.outgoing else s.outgoing * 2 else s.sending) ∧
    (s.step l).2.miso = if l.sck then l.miso else decide (128 ≤ s.sending) := by
  have published (s : Sampler) : (publish s).outgoing = s.outgoing := by
    unfold publish
    split <;> rfl
  rw [step, if_pos selected]
  dsimp only
  rw [published]
  cases high : l.sck with
  | false =>
    refine ⟨by simp [Sampler.clock, sending, high], ?_⟩
    simp only [Sampler.clock, high]
    rfl
  | true => cases s.lastClock <;> simp [Sampler.clock, high]

end Sampler

namespace Chip

variable {ν : Type} [NetHost ν]

/-! ## One step -/

/-- A selected step in which no byte is complete. -/
theorem step_waiting {c : Chip} {s : Sampler} {l : Lines} (h : c.sampler.step c.lines = (s, l))
    (selected : s.selected = true) (ready : s.ready = false) (net : ν) :
    c.step net =
      ({ c with sampler := s, lines := l, wasSelected := true, steps := c.steps + 1
                memory := (c.memory.tick none net).1 }, (c.memory.tick none net).2) := by
  unfold step transact
  rw [h]
  simp only [selected, ready]
  rfl

/-- A selected step in which a byte is complete. -/
theorem step_fed {c : Chip} {s : Sampler} {l : Lines} (h : c.sampler.step c.lines = (s, l))
    (selected : s.selected = true) (ready : s.ready = true) (net : ν) :
    let fed := c.decoder.feed s.take.1
    c.step net =
      ({ c with sampler := s.take.2.prime (executeSome c.memory fed.1 net).1.1
                lines := l, wasSelected := true, steps := c.steps + 1, decoder := fed.2
                memory := (c.memory.tick fed.1 net).1 }, (c.memory.tick fed.1 net).2) := by
  unfold step transact
  rw [h]
  simp only [selected, ready]
  rfl

/-- The step in which the chip notices that it has been deselected. -/
theorem step_deselected {c : Chip} {s : Sampler} {l : Lines} (h : c.sampler.step c.lines = (s, l))
    (selected : s.selected = false) (wasSelected : c.wasSelected = true) (net : ν) :
    c.step net =
      ({ c with sampler := s.take.2.prime 0, lines := l, wasSelected := false
                steps := c.steps + 1, decoder := c.decoder.deselect.2
                memory := (c.memory.tick c.decoder.deselect.1 net).1 },
        (c.memory.tick c.decoder.deselect.1 net).2) := by
  unfold step transact
  rw [h]
  simp only [selected, wasSelected]
  rfl

end Chip

namespace Master

variable {ν : Type} [NetHost ν] {α β : Type}

/-- From every chip with the first property, an action ends in a chip with the second one, and the
memory has made the given ticks. -/
def Performs (act : BusM ν α) (pre : Chip → Prop) (ops : List (Option MemoryOp)) (post : Chip → Prop) : Prop :=
  ∀ c net, pre c →
    post (act c net).1.2 ∧ ((act c net).1.2.memory, (act c net).2) = c.memory.ticks ops net

theorem Performs.bind {act : BusM ν α} {next : α → BusM ν β} {pre mid post : Chip → Prop}
    {ops later : List (Option MemoryOp)} (first : Performs act pre ops mid)
    (rest : ∀ a, Performs (next a) mid later post) :
    Performs (act >>= next) pre (ops ++ later) post := by
  intro c net h
  obtain ⟨mid, run⟩ := first c net h
  rw [AddressSpace.ticks_append, ← run]
  exact rest _ _ _ mid

theorem Performs.pure (a : α) (pre : Chip → Prop) : Performs (Pure.pure a : BusM ν α) pre [] pre :=
  fun _ _ h => ⟨h, rfl⟩

theorem Performs.setLines {f : Lines → Lines} {pre post : Chip → Prop}
    (h : ∀ c, pre c → post { c with lines := f c.lines }) :
    Performs (ν := ν) (setLines f) pre [] post :=
  fun c _ p => ⟨h c p, rfl⟩

theorem Performs.get (pre : Chip → Prop) : Performs (get : BusM ν Chip) pre [] pre :=
  fun _ _ h => ⟨h, rfl⟩

/-- A step in which no byte is complete. -/
theorem Performs.waiting {pre post : Chip → Prop}
    (h : ∀ c, pre c → ∃ s l, c.sampler.step c.lines = (s, l) ∧ s.selected = true ∧ s.ready = false ∧
      ∀ m steps, post { c with sampler := s, lines := l, wasSelected := true, steps := steps, memory := m }) :
    Performs (ν := ν) step pre [none] post := by
  intro c net p
  obtain ⟨s, l, stepped, selected, ready, after⟩ := h c p
  have run := Chip.step_waiting stepped selected ready net
  change post (c.step net).1 ∧ ((c.step net).1.memory, (c.step net).2) = _
  rw [run]
  exact ⟨after _ _, rfl⟩

/-- A step in which a byte is complete and the framing is given it. -/
theorem Performs.fed {pre post : Chip → Prop} {op : Option MemoryOp}
    (h : ∀ c, pre c → ∃ s l, c.sampler.step c.lines = (s, l) ∧ s.selected = true ∧ s.ready = true ∧
      (c.decoder.feed s.received).1 = op ∧
      ∀ answer m steps, post { c with sampler := s.take.2.prime answer, lines := l, wasSelected := true
                                      decoder := (c.decoder.feed s.received).2, steps := steps, memory := m }) :
    Performs (ν := ν) step pre [op] post := by
  intro c net p
  obtain ⟨s, l, stepped, selected, ready, rfl, after⟩ := h c p
  have run := Chip.step_fed stepped selected ready net
  change post (c.step net).1 ∧ ((c.step net).1.memory, (c.step net).2) = _
  rw [run]
  exact ⟨after _ _ _, rfl⟩

/-- The step that ends a transaction. -/
theorem Performs.ended {pre post : Chip → Prop} {op : Option MemoryOp}
    (h : ∀ c, pre c → ∃ s l, c.sampler.step c.lines = (s, l) ∧ s.selected = false ∧ c.wasSelected = true ∧
      c.decoder.deselect.1 = op ∧
      ∀ m steps, post { c with sampler := s.take.2.prime 0, lines := l, wasSelected := false
                               decoder := c.decoder.deselect.2, steps := steps, memory := m }) :
    Performs (ν := ν) step pre [op] post := by
  intro c net p
  obtain ⟨s, l, stepped, selected, wasSelected, rfl, after⟩ := h c p
  have run := Chip.step_deselected stepped selected wasSelected net
  change post (c.step net).1 ∧ ((c.step net).1.memory, (c.step net).2) = _
  rw [run]
  exact ⟨after _ _, rfl⟩

/-! ## Select, bits, bytes -/

/-- A selected chip that has received some bits sees the next one, with the clock low. -/
structure Presented (level : Bool) (edges : Nat) (incoming : UInt8) (d : Decoder) (c : Chip) : Prop
    extends c.Receiving edges incoming d where
  clock : c.sampler.lastClock = false
  mosi : c.lines.mosi = level

theorem select_performs (d : Decoder) :
    Performs (ν := ν) select (·.Between d) [none] (·.Receiving 0 0 d) := by
  have lower : Performs (ν := ν) (setLines fun l => { l with ss := false, sck := false }) (·.Between d) []
      fun c => c.Between d ∧ c.lines.selected = true ∧ c.lines.sck = false :=
    .setLines fun c h => ⟨⟨h.edges, h.incoming, h.ready, h.decoder⟩, rfl, rfl⟩
  refine lower.bind fun _ => .waiting fun c ⟨h, selected, low⟩ => ?_
  obtain ⟨outgoing, stepped⟩ := c.sampler.step_low selected low (by rw [h.edges]; decide)
  exact ⟨_, _, stepped, rfl, h.ready, fun _ _ => ⟨selected, rfl, h.edges, h.incoming, h.ready, h.decoder⟩⟩

/-- The first half of a bit: the level is set while the clock is low. -/
theorem present_performs (level : Bool) {edges : Nat} (few : edges < 8) (incoming : UInt8) (d : Decoder) :
    Performs (ν := ν) (do setLines fun l => { l with sck := false, mosi := level }; step)
      (·.Receiving edges incoming d) [none] (Presented level edges incoming d) := by
  have lower : Performs (ν := ν) (setLines fun l => { l with sck := false, mosi := level })
      (·.Receiving edges incoming d) []
      fun c => c.Receiving edges incoming d ∧ c.lines.sck = false ∧ c.lines.mosi = level :=
    .setLines fun c h =>
      ⟨⟨h.selected, h.wasSelected, h.edges, h.incoming, h.ready, h.decoder⟩, rfl, rfl⟩
  refine lower.bind fun _ => .waiting fun c ⟨h, low, mosi⟩ => ?_
  obtain ⟨outgoing, stepped⟩ := c.sampler.step_low h.selected low (h.edges ▸ few)
  exact ⟨_, _, stepped, rfl, h.ready, fun _ _ =>
    ⟨⟨h.selected, rfl, h.edges, h.incoming, h.ready, h.decoder⟩, rfl, mosi⟩⟩

theorem raise_performs (level : Bool) (edges : Nat) (incoming : UInt8) (d : Decoder) :
    Performs (ν := ν) (setLines fun l => { l with sck := true }) (Presented level edges incoming d) []
      fun c => Presented level edges incoming d c ∧ c.lines.sck = true :=
  .setLines fun _ h =>
    ⟨⟨⟨h.selected, h.wasSelected, h.edges, h.incoming, h.ready, h.decoder⟩, h.clock, h.mosi⟩, rfl⟩

/-- The second half of a bit before the last one of a byte. -/
theorem rise_performs (level : Bool) {edges : Nat} (few : edges < 7) (incoming : UInt8) (d : Decoder) :
    Performs (ν := ν) (do setLines fun l => { l with sck := true }; step)
      (Presented level edges incoming d) [none] (·.Receiving (edges + 1) (shiftIn incoming level) d) := by
  refine (raise_performs level edges incoming d).bind fun _ => .waiting fun c ⟨h, high⟩ => ?_
  have stepped := c.sampler.step_rise h.selected high h.clock
  rw [Sampler.publish, if_neg (by dsimp only; rw [h.edges]; omega), h.edges, h.incoming, h.mosi] at stepped
  exact ⟨_, _, stepped, rfl, h.ready, fun _ _ => ⟨h.selected, rfl, rfl, rfl, h.ready, h.decoder⟩⟩

/-- The second half of the last bit of a byte: the framing is given the byte. -/
theorem complete_performs (level : Bool) (incoming : UInt8) (d : Decoder) :
    Performs (ν := ν) (do setLines fun l => { l with sck := true }; step)
      (Presented level 7 incoming d) [(d.feed (shiftIn incoming level)).1]
      (·.Receiving 0 0 (d.feed (shiftIn incoming level)).2) := by
  refine (raise_performs level 7 incoming d).bind fun _ => .fed fun c ⟨h, high⟩ => ?_
  have stepped := c.sampler.step_rise h.selected high h.clock
  rw [Sampler.publish, if_pos (by dsimp only; rw [h.edges]), h.incoming, h.mosi] at stepped
  refine ⟨_, _, stepped, rfl, rfl, ?_, fun _ _ _ => ⟨h.selected, rfl, rfl, rfl, rfl, ?_⟩⟩ <;> rw [h.decoder]

theorem transferBit_performs (level : Bool) {edges : Nat} {incoming : UInt8} {d : Decoder} {op : Option MemoryOp}
    {post : Chip → Prop} (few : edges < 8)
    (second : Performs (ν := ν) (do setLines fun l => { l with sck := true }; step)
      (Presented level edges incoming d) [op] post) :
    Performs (ν := ν) (transferBit level) (·.Receiving edges incoming d) [none, op] post := by
  have halves : transferBit (ν := ν) level =
      (do setLines fun l => { l with sck := false, mosi := level }; step) >>= fun _ => get >>= fun c =>
        (do setLines fun l => { l with sck := true }; step) >>= fun _ => pure c.lines.miso := rfl
  rw [halves]
  exact (present_performs level few incoming d).bind fun _ =>
    (Performs.get _).bind fun c => second.bind fun _ => .pure c.lines.miso post

/-- The bits that complete a byte. -/
theorem bits_performs (levels : List Bool) (last : Bool) {edges : Nat} (whole : edges + levels.length = 7)
    (incoming : UInt8) (d : Decoder) :
    let fed := d.feed ((levels ++ [last]).foldl shiftIn incoming)
    Performs (ν := ν) ((levels ++ [last]).mapM transferBit) (·.Receiving edges incoming d)
      (List.replicate (2 * levels.length + 1) none ++ [fed.1]) (·.Receiving 0 0 fed.2) := by
  induction levels generalizing edges incoming with
  | nil =>
    obtain rfl : edges = 7 := whole
    rw [List.nil_append, List.mapM_cons]
    exact (transferBit_performs last (by decide) (complete_performs last incoming d)).bind fun answer =>
      .pure [answer] _
  | cons level levels ih =>
    rw [List.length_cons] at whole
    have few : edges < 7 := by omega
    have next : edges + 1 + levels.length = 7 := by omega
    have rest := ih next (shiftIn incoming level)
    rw [List.cons_append, List.mapM_cons]
    have first := transferBit_performs (ν := ν) level (Nat.lt_succ_of_lt few) (rise_performs level few incoming d)
    refine first.bind fun answer => ?_
    have := rest.bind fun answers => Performs.pure (answer :: answers) _
    rwa [List.append_nil] at this

theorem transfer_performs (b : UInt8) (d : Decoder) :
    Performs (ν := ν) (transfer b) (·.Receiving 0 0 d) (List.replicate 15 none ++ [(d.feed b).1])
      (·.Receiving 0 0 (d.feed b).2) := by
  have whole : 0 + ([7, 6, 5, 4, 3, 2, 1].map b.toNat.testBit).length = 7 := rfl
  have bits := bits_performs (ν := ν) _ (b.toNat.testBit 0) whole 0 d
  have split : [7, 6, 5, 4, 3, 2, 1].map b.toNat.testBit ++ [b.toNat.testBit 0] = bitsOf b := rfl
  have assembled : (bitsOf b).foldl shiftIn 0 = b := ofBits_bitsOf b
  rw [split, assembled] at bits
  have lower : Performs (ν := ν) (setLines fun l => { l with sck := false }) (·.Receiving 0 0 (d.feed b).2) []
      (·.Receiving 0 0 (d.feed b).2) :=
    .setLines fun c h => ⟨h.selected, h.wasSelected, h.edges, h.incoming, h.ready, h.decoder⟩
  have := bits.bind fun answer => lower.bind fun _ => Performs.pure (ofBits answer) _
  rwa [List.append_nil, List.append_nil] at this

/-- The framing after some bytes. -/
def fedAll (d : Decoder) (bytes : Bytes) : Decoder := bytes.foldl (fun d b => (d.feed b).2) d

theorem fedAll_cons (d : Decoder) (b : UInt8) (bs : Bytes) : fedAll d (b :: bs) = fedAll (d.feed b).2 bs := rfl

/-- What the framing makes of some bytes: fifteen steps without an operation before each one. -/
def fedOps (d : Decoder) : Bytes → List (Option MemoryOp)
  | [] => []
  | b :: bs => List.replicate 15 none ++ (d.feed b).1 :: fedOps (d.feed b).2 bs

/-- The ticks of a transaction, one for each step of the chip. -/
def transactionOps (d : Decoder) (bytes : Bytes) : List (Option MemoryOp) :=
  none :: fedOps d bytes ++ [(fedAll d bytes).deselect.1]

theorem transfers_performs (bytes : Bytes) (d : Decoder) :
    Performs (ν := ν) (bytes.mapM transfer) (·.Receiving 0 0 d) (fedOps d bytes)
      (·.Receiving 0 0 (fedAll d bytes)) := by
  induction bytes generalizing d with
  | nil => exact .pure [] _
  | cons b bs ih =>
    rw [List.mapM_cons]
    have := (transfer_performs (ν := ν) b d).bind fun answer =>
      (ih (d.feed b).2).bind fun answers => Performs.pure (answer :: answers) _
    rwa [List.append_nil, List.append_assoc] at this

theorem deselect_performs (d : Decoder) :
    Performs (ν := ν) deselect (·.Receiving 0 0 d) [d.deselect.1] (·.Between d.deselect.2) := by
  have raise : Performs (ν := ν) (setLines fun l => { l with ss := true, sck := false }) (·.Receiving 0 0 d) []
      fun c => c.lines.selected = false ∧ c.wasSelected = true ∧ c.sampler.ready = false ∧ c.decoder = d :=
    .setLines fun c h => ⟨rfl, h.wasSelected, h.ready, h.decoder⟩
  refine raise.bind fun _ => .ended fun c ⟨selected, wasSelected, ready, decoder⟩ => ?_
  have stepped : c.sampler.step c.lines = (c.sampler.deselect, c.lines) := by
    rw [Sampler.step, if_neg (by rw [selected]; decide)]
  refine ⟨_, _, stepped, rfl, wasSelected, ?_, fun _ _ => ⟨rfl, rfl, rfl, ?_⟩⟩ <;> rw [decoder]

/-- **A transaction is a run of ticks, and the framing decides what they do.** -/
theorem transaction_performs (bytes : Bytes) (d : Decoder) :
    Performs (ν := ν) (transaction bytes) (·.Between d) (transactionOps d bytes)
      (·.Between (fedAll d bytes).deselect.2) :=
  (select_performs d).bind fun _ => (transfers_performs bytes d).bind fun answers =>
    (deselect_performs _).bind fun _ => .pure answers _

/-! ## Flat writes -/

/-- A transaction leaves the framing as it was before the first byte. -/
theorem deselect_fedAll (bytes : Bytes) (d : Decoder) : (fedAll d bytes).deselect.2 = d.deselect.2 := by
  induction bytes generalizing d with
  | nil => rfl
  | cons b bs ih =>
    have fed : (d.feed b).2.deselect.2 = d.deselect.2 := by cases d <;> rfl
    exact (ih _).trans fed

/-- A chip of a model that is between transactions. -/
def Waits (model : ChipModel) (c : Chip) : Prop := c.Between (.idle model) ∧ c.model = model

theorem transaction_waits (model : ChipModel) (bytes : Bytes) :
    Performs (ν := ν) (transaction bytes) (Waits model) (transactionOps (.idle model) bytes) (Waits model) := by
  intro c net ⟨between, same⟩
  obtain ⟨after, run⟩ := transaction_performs bytes (.idle model) c net between
  have back : (Decoder.idle model).deselect.2 = .idle model := by cases model <;> rfl
  rw [deselect_fedAll, back] at after
  refine ⟨⟨after, ?_⟩, run⟩
  have kept := (AddressSpace.same_ticks c.memory (transactionOps (.idle model) bytes) net).1
  rw [← run] at kept
  exact kept.trans same

/-- The ticks of frames that write bytes from a flat address on. -/
def frameOps (addr : UInt16) : Bytes → List (Option MemoryOp)
  | [] => []
  | b :: bs =>
    transactionOps (.idle .w5100) [writeOpcode, highByte addr, lowByte addr, b] ++ frameOps (addr + 1) bs

/-- The ticks of a flat write. -/
def writeOps (model : ChipModel) (addr : UInt16) (data : Bytes) : List (Option MemoryOp) :=
  match model with
  | .w5100 => frameOps addr data
  | .w5500 => transactionOps (.idle .w5500) ([highByte addr, lowByte addr, controlByte 0 true] ++ data)

theorem writeFrames_performs (addr : UInt16) (data : Bytes) :
    Performs (ν := ν) (writeFrames addr data) (Waits .w5100) (frameOps addr data) (Waits .w5100) := by
  induction data generalizing addr with
  | nil => exact .pure () _
  | cons b bs ih =>
    have frame : Performs (ν := ν) (writeFrame addr b) (Waits .w5100)
        (transactionOps (.idle .w5100) [writeOpcode, highByte addr, lowByte addr, b]) (Waits .w5100) := by
      have := (transaction_waits (ν := ν) .w5100 [writeOpcode, highByte addr, lowByte addr, b]).bind fun _ =>
        Performs.pure () _
      rwa [List.append_nil] at this
    exact frame.bind fun _ => ih _

theorem writeBurst_performs (addr : UInt16) (data : Bytes) :
    Performs (ν := ν) (writeBurst addr 0 data) (Waits .w5500) (writeOps .w5500 addr data) (Waits .w5500) := by
  have := (transaction_waits (ν := ν) .w5500 ([highByte addr, lowByte addr, controlByte 0 true] ++ data)).bind
    fun _ => Performs.pure () _
  rwa [List.append_nil] at this

/-- **A flat write is a run of ticks**, of frames or of one burst. -/
theorem write_performs (model : ChipModel) (addr : UInt16) (data : Bytes) :
    Performs (ν := ν) (write addr data) (Waits model) (writeOps model addr data) (Waits model) := by
  intro c net waits
  have run : write addr data c net =
      (match c.model with | .w5100 => writeFrames addr data | .w5500 => writeBurst addr 0 data) c net := rfl
  rw [run, waits.2]
  cases model <;> dsimp only
  · exact writeFrames_performs addr data c net waits
  · exact writeBurst_performs addr data c net waits

/-! ## When the operations come -/

/-- A frame that writes carries its byte out at the eighth bit of the byte. -/
theorem frame_ops (addr : UInt16) (b : UInt8) :
    transactionOps (.idle .w5100) [writeOpcode, highByte addr, lowByte addr, b] =
      List.replicate 64 none ++ [some (.write addr.toUInt32 b), none] := by
  have opcode : (Decoder.idle .w5100).feed writeOpcode = (none, .frame (.addrHigh true)) := rfl
  have high : (Decoder.frame (.addrHigh true)).feed (highByte addr) = (none, .frame (.addrLow true (highByte addr))) :=
    rfl
  have low : (Decoder.frame (.addrLow true (highByte addr))).feed (lowByte addr) = (none, .frame (.data true addr)) := by
    simp only [Decoder.feed, FrameState.feed, wordOf_highByte_lowByte, if_true]
  have data : (Decoder.frame (.data true addr)).feed b = (some (.write addr.toUInt32 b), .frame .idle) := rfl
  simp only [transactionOps, fedOps, fedAll, List.foldl, opcode, high, low, data, Decoder.deselect]
  rfl

/-- A write keeps its first bytes, whatever comes after them. -/
theorem fed_writing (block : UInt8) (addr : UInt16) (kept : Array UInt8) (data : Bytes) :
    fedOps (.burst (.writing block addr kept)) data = List.replicate (16 * data.length) none ∧
    fedAll (.burst (.writing block addr kept)) data =
      .burst (.writing block addr (kept ++ (data.take (maxBurst - kept.size)).toArray)) := by
  induction data generalizing kept with
  | nil => exact ⟨rfl, by simp [fedAll]⟩
  | cons b bs ih =>
    have fed : (Decoder.burst (.writing block addr kept)).feed b =
        (none, .burst (.writing block addr (if kept.size < maxBurst then kept.push b else kept))) := rfl
    obtain ⟨ops, all⟩ := ih (if kept.size < maxBurst then kept.push b else kept)
    constructor
    · rw [fedOps, fed, ops]
      rfl
    · rw [fedAll, List.foldl_cons, fed]
      refine all.trans (congrArg (fun kept => Decoder.burst (.writing block addr kept)) ?_)
      by_cases room : kept.size < maxBurst
      · obtain ⟨left, more⟩ := Nat.exists_eq_add_of_lt room
        have next : maxBurst - (kept.push b).size = left := by
          rw [Array.size_push]
          omega
        have now : maxBurst - kept.size = left + 1 := by omega
        rw [if_pos room, next, now, List.take_succ_cons]
        simp
      · have full : maxBurst - kept.size = 0 := Nat.sub_eq_zero_of_le (Nat.not_lt.mp room)
        rw [if_neg room, full, List.take_zero, List.take_zero]

/-- A burst that writes carries all that it keeps out when the chip is deselected. -/
theorem block_ops {block : UInt8} (known : block.toNat < 32) (addr : UInt16) {data : Bytes} (nonempty : data ≠ []) :
    transactionOps (.idle .w5500) ([highByte addr, lowByte addr, controlByte block true] ++ data) =
      List.replicate (49 + 16 * data.length) none ++ [some (.burst (blockAddr block addr) (data.take maxBurst))] := by
  have high : (Decoder.idle .w5500).feed (highByte addr) = (none, .burst (.addrLow (highByte addr))) := rfl
  have low : (Decoder.burst (.addrLow (highByte addr))).feed (lowByte addr) = (none, .burst (.control addr)) := by
    simp only [Decoder.feed, BurstState.feed, wordOf_highByte_lowByte]
  have control : (Decoder.burst (.control addr)).feed (controlByte block true) =
      (none, .burst (.writing block addr #[])) := by
    simp only [Decoder.feed, BurstState.feed, control_block known, if_true]
  obtain ⟨ops, all⟩ := fed_writing block addr #[] data
  have collected : (#[] ++ (data.take (maxBurst - (#[] : Array UInt8).size)).toArray).isEmpty = false := by
    simpa [maxBurst] using nonempty
  have finished : (Decoder.burst (.writing block addr
      (#[] ++ (data.take (maxBurst - (#[] : Array UInt8).size)).toArray))).deselect.1 =
      some (.burst (blockAddr block addr) (data.take maxBurst)) := by
    simp only [Decoder.deselect, BurstState.finish, collected]
    simp
  simp only [transactionOps, fedOps, fedAll_cons, List.cons_append, List.nil_append, high, low, control, ops, all,
    finished, ← List.replicate_append_replicate]
  rfl

theorem burst_ops (addr : UInt16) {data : Bytes} (nonempty : data ≠ []) (fits : data.length ≤ maxBurst) :
    transactionOps (.idle .w5500) ([highByte addr, lowByte addr, controlByte 0 true] ++ data) =
      List.replicate (49 + 16 * data.length) none ++ [some (.burst addr.toUInt32 data)] := by
  rw [block_ops (show (0 : UInt8).toNat < 32 by decide) addr nonempty, blockAddr_flat, List.take_of_length_le fits]

end Master

end EtherChip

import EtherChip.Proofs.Bus.Bytewise
import EtherChip.Proofs.Memory.Storage

/-!
# Walks of bursts

A burst visits one address for each of its bytes. One that writes goes on from the flat address at which
it starts, around the ring if that address lies in one (`writeAddr`). One that reads counts its offset
up as a word and adds the base of its block each time (`readAddr`). `route_readAddr_iff` tells where the
two go the same way: everywhere in the blocks of the rings, and elsewhere unless a burst that started
in a ring leaves it or the offset wraps around.
-/
namespace EtherChip

/-- Where byte `i` of a burst is read. -/
def readAddr (block : UInt8) (addr : UInt16) (i : Nat) : UInt32 := blockAddr block (addr + UInt16.ofNat i)

/-- Where byte `i` of a burst is written. -/
def writeAddr (block : UInt8) (addr : UInt16) (i : Nat) : UInt32 := burstAddr (blockAddr block addr) i

/-! ## Addresses of a burst -/

/-- A burst that starts in a ring stays in it. -/
theorem toNat_burstAddr {start : UInt32} (h : InRings start) (i : Nat) :
    (burstAddr start i).toNat = start.toNat - start.toNat % ringSize + (start.toNat % ringSize + i) % ringSize := by
  have := h.2
  unfold burstAddr
  rcases route_inRings h with ⟨s, target, base⟩ | ⟨s, target, base⟩ <;> rw [target] <;> dsimp only
  · rw [txAddr, base, UInt32.toNat_ofNat', RingOffset.val_advance, RingOffset.val_ofNat]
    simp only [ringSize]
    omega
  · rw [rxAddr, base, UInt32.toNat_ofNat', RingOffset.val_advance, RingOffset.val_ofNat]
    simp only [ringSize]
    omega

theorem inRings_burstAddr {start : UInt32} (h : InRings start) (i : Nat) : InRings (burstAddr start i) := by
  have := h.1
  have := h.2
  rw [InRings, toNat_burstAddr h]
  simp only [ringSize]
  omega

/-- Elsewhere a burst goes upward. -/
theorem burstAddr_upward {start : UInt32} (h : ¬InRings start) (i : Nat) :
    burstAddr start i = start + UInt32.ofNat i := by
  unfold burstAddr
  cases target : route start with
  | common | register | unmapped => rfl
  | tx s o | rx s o =>
    refine absurd ?_ h
    unfold route at target
    dsimp only at target
    split at target
    · cases target
    · split at target
      · cases target
      · split at target
        next tx => exact ⟨by omega, by omega⟩
        next => split at target <;> first | exact ⟨by omega, by omega⟩ | cases target

theorem blockBase_le (block : UInt8) : (blockBase block).toNat ≤ 0x9000 := by
  have all : ∀ n : Fin 256, (blockBase (UInt8.ofNat n)).toNat ≤ 0x9000 := by decide +kernel
  have := all ⟨block.toNat, block.toNat_lt⟩
  rwa [UInt8.ofNat_toNat] at this

/-- The base of a ring block is the start of a ring. -/
theorem blockBase_ring {block : UInt8} (ring : isRingBlock block = true) :
    0x4000 ≤ (blockBase block).toNat ∧ (blockBase block).toNat + ringSize ≤ 0x8000 ∧
      (blockBase block).toNat % ringSize = 0 := by
  have all : ∀ n : Fin 256, isRingBlock (UInt8.ofNat n) = true → 0x4000 ≤ (blockBase (UInt8.ofNat n)).toNat ∧
      (blockBase (UInt8.ofNat n)).toNat + ringSize ≤ 0x8000 ∧ (blockBase (UInt8.ofNat n)).toNat % ringSize = 0 := by
    decide +kernel
  have := all ⟨block.toNat, block.toNat_lt⟩
  rw [UInt8.ofNat_toNat] at this
  exact this ring

theorem toNat_blockAddr (block : UInt8) (addr : UInt16) :
    (blockAddr block addr).toNat =
      (blockBase block).toNat + if isRingBlock block then addr.toNat % ringSize else addr.toNat := by
  have := blockBase_le block
  have := addr.toNat_lt
  rw [blockAddr, UInt32.toNat_add, UInt32.toNat_ofNat']
  split
  · simp only [ringSize] at *
    omega
  · omega

theorem toNat_offset (addr : UInt16) (i : Nat) : (addr + UInt16.ofNat i).toNat = (addr.toNat + i) % 0x10000 := by
  rw [UInt16.toNat_add, UInt16.toNat_ofNat']
  omega

/-! ## Reads and writes -/

/-- In a ring block both directions go around the ring. -/
theorem readAddr_ring {block : UInt8} (ring : isRingBlock block = true) (addr : UInt16) (i : Nat) :
    writeAddr block addr i = readAddr block addr i := by
  obtain ⟨low, high, start⟩ := blockBase_ring ring
  have flat := toNat_blockAddr block addr
  have read : (readAddr block addr i).toNat = _ := toNat_blockAddr block _
  rw [if_pos ring] at flat
  rw [if_pos ring, toNat_offset] at read
  have inside : InRings (blockAddr block addr) := by
    simp only [InRings, flat, ringSize] at *
    omega
  rw [← UInt32.toNat_inj, writeAddr, toNat_burstAddr inside, flat, read]
  simp only [ringSize] at *
  omega

/-- Both directions of a burst visit the same target at byte `i`: in a ring block always; elsewhere as
long as a burst that starts in a ring does not come to its end, and the offset does not wrap around to
an address that is mapped. -/
def SameWalk (block : UInt8) (addr : UInt16) (i : Nat) : Prop :=
  isRingBlock block = true ∨
    (InRings (blockAddr block addr) → (blockAddr block addr).toNat % ringSize + i < ringSize) ∧
      (addr.toNat + i < 0x10000 ∨ route (readAddr block addr i) = .unmapped)

instance (block : UInt8) (addr : UInt16) : DecidablePred (SameWalk block addr) := fun _ =>
  inferInstanceAs (Decidable (_ ∨ _))

/-- **Where reads and writes go the same way.** -/
theorem route_readAddr_iff (block : UInt8) (addr : UInt16) {i : Nat} (bound : i < maxBurst) :
    route (writeAddr block addr i) = route (readAddr block addr i) ↔ SameWalk block addr i := by
  by_cases ring : isRingBlock block = true
  · exact ⟨fun _ => .inl ring, fun _ => congrArg route (readAddr_ring ring addr i)⟩
  · have := blockBase_le block
    have := addr.toNat_lt
    have flat := toNat_blockAddr block addr
    have read : (readAddr block addr i).toNat = _ := toNat_blockAddr block _
    rw [if_neg ring] at flat
    rw [if_neg ring, toNat_offset] at read
    rw [SameWalk, or_iff_right ring]
    by_cases wraps : addr.toNat + i < 0x10000
    · rw [and_iff_left (.inl wraps)]
      rw [Nat.mod_eq_of_lt wraps] at read
      by_cases inside : InRings (blockAddr block addr)
      · have write : (writeAddr block addr i).toNat = _ := toNat_burstAddr inside i
        have mapped : route (writeAddr block addr i) ≠ .unmapped := (plain_inRings (inRings_burstAddr inside i)).mapped
        rw [route_eq_route, or_iff_left fun h => mapped h.1, forall_prop_of_true inside, ← UInt32.toNat_inj, write, read]
        simp only [ringSize, maxBurst] at *
        omega
      · rw [iff_true_intro fun h => absurd h inside, iff_true]
        congr 1
        rw [← UInt32.toNat_inj, writeAddr, burstAddr_upward inside, UInt32.toNat_add, UInt32.toNat_ofNat', read]
        simp only [maxBurst] at *
        omega
    · -- An offset that wraps around started above every mapped address.
      have outside : ¬InRings (blockAddr block addr) := by
        simp only [InRings, maxBurst] at *
        omega
      have past : route (writeAddr block addr i) = .unmapped := by
        apply route_unmapped
        rw [writeAddr, burstAddr_upward outside, UInt32.toNat_add, UInt32.toNat_ofNat']
        simp only [maxBurst] at *
        omega
      rw [and_iff_right fun h => absurd h outside, or_iff_right wraps, past]
      exact eq_comm

/-- A burst that writes does not come back to an address. -/
theorem burstAddr_ne (start : UInt32) {j k : Nat} (lt : j < k) (bound : k < maxBurst) :
    burstAddr start k ≠ burstAddr start j := by
  intro same
  rw [← UInt32.toNat_inj] at same
  by_cases inside : InRings start
  · rw [toNat_burstAddr inside, toNat_burstAddr inside] at same
    simp only [ringSize, maxBurst] at *
    omega
  · rw [burstAddr_upward inside, burstAddr_upward inside, UInt32.toNat_add, UInt32.toNat_add, UInt32.toNat_ofNat',
      UInt32.toNat_ofNat'] at same
    simp only [maxBurst] at *
    omega

/-! ## What the framing asks for -/

/-- Bytes that arrive one after the other. -/
def arriving (bytes : Bytes) : List (Option BusEvent) := bytes.map fun b => some (.byte b)

/-- The offset one byte on. -/
theorem offset_succ (addr : UInt16) (i : Nat) : addr + 1 + UInt16.ofNat i = addr + UInt16.ofNat (i + 1) := by
  rw [UInt16.add_assoc, UInt16.ofNat_add, UInt16.add_comm (UInt16.ofNat i)]
  rfl

theorem operations_reading (block : UInt8) (addr : UInt16) (filler : Bytes) (events : List (Option BusEvent)) :
    (Decoder.burst (.reading block addr)).operations (arriving filler ++ events) =
      (List.range filler.length).map (fun i => some (.read (readAddr block addr i))) ++
        (Decoder.burst (.reading block (addr + UInt16.ofNat filler.length))).operations events := by
  induction filler generalizing addr with
  | nil =>
    have still : addr + UInt16.ofNat 0 = addr := UInt16.add_zero addr
    rw [List.length_nil, still]
    rfl
  | cons b bs ih =>
    have first : readAddr block addr 0 = blockAddr block addr := congrArg (blockAddr block) (UInt16.add_zero addr)
    have later (i : Nat) : readAddr block (addr + 1) i = readAddr block addr (i + 1) :=
      congrArg (blockAddr block) (offset_succ addr i)
    have step : (Decoder.burst (.reading block addr)).operations (arriving (b :: bs) ++ events) =
        some (.read (blockAddr block addr)) ::
          (Decoder.burst (.reading block (addr + 1))).operations (arriving bs ++ events) := rfl
    rw [step, ih, offset_succ, List.length_cons, List.range_succ_eq_map, List.map_cons, List.map_map, first]
    simp only [later, Function.comp_def]
    rfl

/-- A burst that writes keeps its first data and comes out when the chip is released, if there are any. -/
theorem operations_collecting (block : UInt8) (addr : UInt16) {kept : Array UInt8} (fits : kept.size ≤ maxBurst)
    (data : Bytes) :
    (Decoder.burst (.writing block addr kept)).operations (arriving data ++ [some .release]) =
      List.replicate data.length none ++
        [if kept.toList ++ data = [] then none
          else some (.burst (blockAddr block addr) ((kept.toList ++ data).take maxBurst))] := by
  induction data generalizing kept with
  | nil =>
    have whole : kept.toList.take maxBurst = kept.toList := List.take_of_length_le (by rwa [Array.length_toList])
    have finished : (BurstState.writing block addr kept).finish =
        if kept.toList = [] then none else some (.burst (blockAddr block addr) kept.toList) := by
      simp [BurstState.finish, Array.isEmpty_iff]
    rw [List.append_nil, whole, ← finished]
    rfl
  | cons b bs ih =>
    have step : (Decoder.burst (.writing block addr kept)).operations (arriving (b :: bs) ++ [some .release]) =
        none :: (Decoder.burst (.writing block addr (if kept.size < maxBurst then kept.push b else kept))).operations
          (arriving bs ++ [some .release]) := rfl
    rw [step]
    by_cases room : kept.size < maxBurst
    · have pushed : (kept.push b).toList ++ bs = kept.toList ++ b :: bs := by simp
      rw [if_pos room, ih (by rw [Array.size_push]; omega), pushed]
      rfl
    · -- what is kept is a whole burst already, so no later byte shows
      have full : kept.toList.length = maxBurst := by
        rw [Array.length_toList]
        omega
      have some : kept.toList ≠ [] := fun empty => by
        rw [empty] at full
        exact absurd full (by decide)
      rw [if_neg room, ih fits, List.take_left' full, List.take_left' full, if_neg (by simp [some]), if_neg (by simp [some])]
      rfl

theorem operations_writing (block : UInt8) (addr : UInt16) (kept : Array UInt8) {data : Bytes}
    (fits : kept.size + data.length ≤ maxBurst) (nonempty : kept.toList ++ data ≠ []) :
    (Decoder.burst (.writing block addr kept)).operations (arriving data ++ [some .release]) =
      List.replicate data.length none ++ [some (.burst (blockAddr block addr) (kept.toList ++ data))] := by
  have whole : (kept.toList ++ data).take maxBurst = kept.toList ++ data :=
    List.take_of_length_le (by rwa [List.length_append, Array.length_toList])
  rw [operations_collecting block addr (by omega), if_neg nonempty, whole]

/-- The first three bytes of a burst. -/
theorem operations_start (high low control : UInt8) (events : List (Option BusEvent)) :
    (Decoder.idle .w5500).operations (arriving [high, low, control] ++ events) =
      none :: none ::
        if asksWrite control then
          none :: (Decoder.burst (.writing (selectedBlock control) (wordOf high low) #[])).operations events
        else
          some (.read (blockAddr (selectedBlock control) (wordOf high low))) ::
            (Decoder.burst (.reading (selectedBlock control) (wordOf high low + 1))).operations events := by
  have step : (Decoder.idle .w5500).operations (arriving [high, low, control] ++ events) =
      none :: none :: (Decoder.burst (.control (wordOf high low))).operations (some (.byte control) :: events) := rfl
  rw [step, Decoder.operations, Decoder.meet, Decoder.feed, BurstState.feed]
  cases asksWrite control <;> rfl

/-- A header of a burst. -/
theorem operations_header {block : UInt8} (known : block.toNat < 32) (addr : UInt16) (events : List (Option BusEvent)) :
    (Decoder.idle .w5500).operations (arriving [highByte addr, lowByte addr, controlByte block false] ++ events) =
      none :: none :: some (.read (blockAddr block addr)) :: (Decoder.burst (.reading block (addr + 1))).operations events ∧
    (Decoder.idle .w5500).operations (arriving [highByte addr, lowByte addr, controlByte block true] ++ events) =
      none :: none :: none :: (Decoder.burst (.writing block addr #[])).operations events := by
  constructor
  all_goals
    rw [operations_start, wordOf_highByte_lowByte, (control_block known _).1, (control_block known _).2]
    rfl

/-- A burst that reads, whatever is sent while the data come back. -/
theorem operations_reads (high low : UInt8) {control : UInt8} (reads : asksWrite control = false) (filler : Bytes)
    (events : List (Option BusEvent)) :
    (Decoder.idle .w5500).operations (arriving ([high, low, control] ++ filler) ++ events) =
      [none, none] ++
        (List.range (filler.length + 1)).map (fun i =>
          some (.read (readAddr (selectedBlock control) (wordOf high low) i))) ++
        (Decoder.burst (.reading (selectedBlock control)
          (wordOf high low + 1 + UInt16.ofNat filler.length))).operations events := by
  have start := operations_start high low control (arriving filler ++ events)
  have first : readAddr (selectedBlock control) (wordOf high low) 0 = blockAddr (selectedBlock control) (wordOf high low) :=
    congrArg (blockAddr _) (UInt16.add_zero _)
  have later (i : Nat) : readAddr (selectedBlock control) (wordOf high low + 1) i =
      readAddr (selectedBlock control) (wordOf high low) (i + 1) := congrArg (blockAddr _) (offset_succ _ i)
  rw [reads, if_neg Bool.false_ne_true, operations_reading] at start
  rw [List.range_succ_eq_map, List.map_cons, List.map_map, first, arriving, List.map_append, List.append_assoc]
  simp only [later] at start
  exact start

theorem operations_readBurst {block : UInt8} (known : block.toNat < 32) (addr : UInt16) (filler : Bytes)
    (events : List (Option BusEvent)) :
    (Decoder.idle .w5500).operations
        (arriving ([highByte addr, lowByte addr, controlByte block false] ++ filler) ++ events) =
      [none, none] ++ (List.range (filler.length + 1)).map (fun i => some (.read (readAddr block addr i))) ++
        (Decoder.burst (.reading block (addr + 1 + UInt16.ofNat filler.length))).operations events := by
  have burst := operations_reads (highByte addr) (lowByte addr) (control_block known false).2 filler events
  rwa [wordOf_highByte_lowByte, (control_block known false).1] at burst

/-- What has been written to plain storage is read back where both directions go the same way. -/
theorem read_writeBurst {ν : Type} [NetHost ν] (m : AddressSpace) (block : UInt8) (addr : UInt16) {data : Bytes}
    (bound : data.length ≤ maxBurst)
    (same : ∀ i < data.length, SameWalk block addr i ∧ (route (readAddr block addr i)).Plain) (net : ν) :
    (List.range data.length).map (fun i =>
      (m.writeBurst (blockAddr block addr) data net).1.read (readAddr block addr i)) = data := by
  have walk (i : Nat) (lt : i < data.length) :
      route (burstAddr (blockAddr block addr) i) = route (readAddr block addr i) :=
    (route_readAddr_iff block addr (Nat.lt_of_lt_of_le lt bound)).mpr (same i lt).1
  have plain (i : Nat) (lt : i < data.length) : (route (burstAddr (blockAddr block addr) i)).Plain :=
    walk i lt ▸ (same i lt).2
  have apart (j k : Nat) (lt : j < k) (lt' : k < data.length) :
      route (burstAddr (blockAddr block addr) k) ≠ route (burstAddr (blockAddr block addr) j) := fun eq =>
    burstAddr_ne _ lt (Nat.lt_of_lt_of_le lt' bound)
      ((route_eq_iff (plain j (Nat.lt_trans lt lt')).mapped).mp eq)
  apply List.ext_getElem
  · rw [List.length_map, List.length_range]
  · intro i _ lt
    rw [List.getElem_map, List.getElem_range, AddressSpace.writeBurst_plain m _ plain, AddressSpace.read_eq_byteAt,
      ← walk i lt, AddressSpace.byteAt_putAll_self m plain apart lt]

/-- **The two directions of a burst.** In the blocks that a control byte can name: a burst that reads asks
for one byte after the other along `readAddr`, one byte ahead; a burst that writes comes out as one
operation when the chip is deselected, and its bytes go along `writeAddr`. The two visit the same
target at a byte exactly if `SameWalk` says so, and while they do, plain storage gives back what has
been written. -/
theorem burst_walks (block : UInt8) (addr : UInt16) (known : block.toNat < 32) :
    (∀ filler : Bytes,
      (Decoder.idle .w5500).operations
          (arriving ([highByte addr, lowByte addr, controlByte block false] ++ filler)) =
        [none, none] ++ (List.range (filler.length + 1)).map fun i => some (.read (readAddr block addr i))) ∧
    (∀ data : Bytes, data ≠ [] → data.length ≤ maxBurst →
      (Decoder.idle .w5500).operations
          (arriving ([highByte addr, lowByte addr, controlByte block true] ++ data) ++ [some .release]) =
        List.replicate (3 + data.length) none ++ [some (.burst (blockAddr block addr) data)]) ∧
    (∀ i < maxBurst, route (writeAddr block addr i) = route (readAddr block addr i) ↔ SameWalk block addr i) ∧
    ∀ data : Bytes, data.length ≤ maxBurst →
      (∀ i < data.length, SameWalk block addr i ∧ (route (readAddr block addr i)).Plain) →
      ∀ (ν : Type) [NetHost ν] (m : AddressSpace) (net : ν),
        (List.range data.length).map (fun i =>
          (m.writeBurst (blockAddr block addr) data net).1.read (readAddr block addr i)) = data := by
  refine ⟨fun filler => ?_, fun data nonempty fits => ?_, fun i lt => route_readAddr_iff block addr lt,
    fun data bound same ν _ m net => read_writeBurst m block addr bound same net⟩
  · have ops := operations_readBurst known addr filler []
    rw [List.append_nil] at ops
    exact ops.trans (List.append_nil _)
  · have header := (operations_header known addr (arriving data ++ [some .release])).2
    have small : (#[] : Array UInt8).size + data.length ≤ maxBurst := by simpa using fits
    rw [operations_writing block addr #[] small nonempty] at header
    rw [arriving, List.map_append, List.append_assoc, Nat.add_comm]
    exact header

/-- Two bytes from the last cell of a transmit ring on: through the block of the ring they are read back;
through block 0 the second one is written around the ring and read from the next ring. -/
theorem burst_walks_ring_end :
    (route (writeAddr 0 0x47FF 1) ≠ route (readAddr 0 0x47FF 1)) ∧
    ∀ (ν : Type) [NetHost ν] (net : ν),
      (List.range 2).map (fun i =>
        ((AddressSpace.powerOn .w5500 {}).writeBurst (blockAddr 2 0x07FF) [1, 2] net).1.read (readAddr 2 0x07FF i)) =
      [1, 2] := by
  have flat := (burst_walks 0 0x47FF (by decide)).2.2.1 1 (by decide)
  refine ⟨fun same => absurd (flat.mp same) (by decide +kernel), fun ν _ net => ?_⟩
  exact (burst_walks 2 0x07FF (by decide)).2.2.2 [1, 2] (by decide) (by decide +kernel) ν _ net

end EtherChip

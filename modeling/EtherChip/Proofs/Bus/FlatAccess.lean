import EtherChip.Proofs.Bus.Exchange
import EtherChip.Proofs.Memory.Still

/-!
# Flat access to the rings

A master reaches the rings by flat addresses on both models. Between transactions of chips whose sockets
stay still only the transactions themselves change the memory (`Chip.Ready`), so each of them can be
read off what the framing asks for: frames store every byte at its own address, a burst goes around
the ring in which it starts (`flat_access`).
-/
namespace EtherChip

open Waveform AddressSpace

variable {ν : Type} [NetHost ν]

/-! ## Transactions that only read -/

/-- What an operation that changes nothing answers. -/
def AddressSpace.answer (m : AddressSpace) : Option MemoryOp → UInt8
  | some (.read addr) => m.read addr
  | _ => 0

namespace Bytewise

variable {calm : ν → Prop} {net : ν}

theorem still_none (m : Bytewise) (still : m.memory.Still calm) (now : calm net) {events : List (Option BusEvent)}
    (silent : events.reduceOption = []) : (m.run events net).1.memory = m.memory ∧ calm (m.run events net).2 := by
  induction events generalizing m net with
  | nil => exact ⟨rfl, now⟩
  | cons event events ih =>
    match event with
    | none =>
      obtain ⟨same, next⟩ := still.tick_reads now (show Reads none from trivial)
      have memory : (m.meet none net).1.memory = m.memory := same
      obtain ⟨rest, last⟩ := ih (m.meet none net).1 (memory ▸ still) next silent
      exact ⟨rest.trans memory, last⟩
    | some event => rw [List.reduceOption_cons_of_some] at silent; exact absurd silent (List.cons_ne_nil _ _)

/-- Bytes that only read, and a release: the answers are what is read, and nothing changes. -/
theorem still_reads (m : Bytewise) (still : m.memory.Still calm) (now : calm net) {events : List (Option BusEvent)}
    {bs : Bytes} (arrive : events.reduceOption = bs.map .byte ++ [.release])
    (reads : ∀ op ∈ m.decoder.operations (arriving bs ++ [some .release]), Reads op) :
    m.answers events net = (m.decoder.operations (arriving bs)).map m.memory.answer ∧
    (m.run events net).1.memory = m.memory ∧ calm (m.run events net).2 := by
  induction events generalizing m net bs with
  | nil => simp at arrive
  | cons event events ih =>
    match event with
    | none =>
      obtain ⟨same, next⟩ := still.tick_reads now (show Reads none from trivial)
      have memory : (m.meet none net).1.memory = m.memory := same
      obtain ⟨answers, rest, last⟩ := ih (m.meet none net).1 (memory ▸ still) next arrive reads
      rw [memory] at answers rest
      exact ⟨answers, rest, last⟩
    | some event =>
      rw [List.reduceOption_cons_of_some] at arrive
      cases bs with
      | nil =>
        obtain ⟨rfl, silent⟩ : event = .release ∧ events.reduceOption = [] := List.cons_eq_cons.mp arrive
        obtain ⟨same, next⟩ := still.tick_reads now (reads _ List.mem_cons_self)
        have memory : (m.meet (some .release) net).1.memory = m.memory := same
        obtain ⟨rest, last⟩ := (m.meet (some .release) net).1.still_none (memory ▸ still) next silent
        exact ⟨(answer_run_none _ silent _).2, rest.trans memory, last⟩
      | cons b bs =>
        rw [List.map_cons, List.cons_append, List.cons_eq_cons] at arrive
        obtain ⟨rfl, later⟩ := arrive
        have first := reads _ List.mem_cons_self
        obtain ⟨same, next⟩ := still.tick_reads now first
        have memory : (m.meet (some (.byte b)) net).1.memory = m.memory := same
        obtain ⟨answers, rest, last⟩ := ih (m.meet (some (.byte b)) net).1 (memory ▸ still) next later
          fun op member => reads op (List.mem_cons_of_mem _ member)
        rw [memory] at answers rest
        have answer : (m.meet (some (.byte b)) net).1.answer = m.memory.answer (m.decoder.meet (some (.byte b))).1 := by
          change (Chip.executeSome m.memory (m.decoder.meet (some (.byte b))).1 net).1.1 = _
          match (m.decoder.meet (some (.byte b))).1, first with
          | none, _ | some (.read _), _ => rfl
        exact ⟨congrArg₂ List.cons answer answers, rest, last⟩

end Bytewise

/-- A chip at rest whose sockets stay still on its host. -/
structure Chip.Ready (c : Chip) (calm : ν → Prop) (net : ν) : Prop where
  rest : c.AtRest
  still : c.memory.Still calm
  now : calm net

namespace Chip.Ready

open Master

variable {c : Chip} {calm : ν → Prop} {net : ν}

/-- A transaction of a model that only reads: what is read comes back one byte later. -/
theorem transaction (h : c.Ready calm net) {bs : Bytes}
    (reads : ∀ op ∈ (Decoder.idle c.model).operations (arriving bs ++ [some .release]), Reads op) :
    let ended := Master.transaction bs c net
    ended.1.1 = (0 :: ((Decoder.idle c.model).operations (arriving bs)).map c.memory.answer).take bs.length ∧
      ended.1.2.memory = c.memory ∧ ended.1.2.Ready calm ended.2 := by
  intro ended
  obtain ⟨-, refines, answers, rest⟩ := h.rest.transaction bs net
  rw [← h.rest.decoder] at reads ⊢
  have arrive := events_transaction (show lastRun [] = [] from rfl) c.lines.mosi bs
  obtain ⟨same, memory, next⟩ := c.bytewise.still_reads h.still h.now arrive reads
  rw [events, same] at answers
  rw [events] at refines
  rw [← refines] at memory next
  have unchanged : ended.1.2.memory = c.memory := memory
  exact ⟨answers, unchanged, rest, unchanged ▸ h.still, next⟩

/-! ## Reads -/

/-- A frame that reads asks for its byte when the address is complete. -/
theorem operations_readFrame (addr : UInt16) (events : List (Option BusEvent)) :
    (Decoder.idle .w5100).operations (arriving [readOpcode, highByte addr, lowByte addr, 0] ++ events) =
      [none, none, some (.read addr.toUInt32), none] ++ (Decoder.idle .w5100).operations events := by
  have low : (Decoder.frame (.addrLow false (highByte addr))).feed (lowByte addr) =
      (some (.read addr.toUInt32), .frame (.data false addr)) := by
    simp only [Decoder.feed, FrameState.feed, wordOf_highByte_lowByte, if_neg Bool.false_ne_true]
  have rest : (Decoder.frame (.addrLow false (highByte addr))).operations (arriving [lowByte addr, 0] ++ events) =
      ((Decoder.frame (.addrLow false (highByte addr))).feed (lowByte addr)).1 ::
        ((Decoder.frame (.addrLow false (highByte addr))).feed (lowByte addr)).2.operations (arriving [0] ++ events) := rfl
  rw [low] at rest
  exact congrArg (fun ops => none :: none :: ops) rest

theorem readFrame (h : c.Ready calm net) (model : c.model = .w5100) (addr : UInt16) :
    let ended := Master.readFrame addr c net
    ended.1.1 = c.memory.read addr.toUInt32 ∧ ended.1.2.memory = c.memory ∧ ended.1.2.Ready calm ended.2 := by
  have ops := operations_readFrame addr []
  have all := operations_readFrame addr [some .release]
  rw [List.append_nil, ← model] at ops
  rw [← model] at all
  have reads : ∀ op ∈ (Decoder.idle c.model).operations
      (arriving [readOpcode, highByte addr, lowByte addr, 0] ++ [some .release]), Reads op := by
    rw [all, model]
    intro op member
    simp only [Decoder.idle, Decoder.operations, Decoder.meet, Decoder.deselect, List.cons_append, List.nil_append,
      List.mem_cons, List.not_mem_nil, or_false] at member
    rcases member with rfl | rfl | rfl | rfl | rfl <;> trivial
  obtain ⟨answers, unchanged, ready⟩ := h.transaction reads
  rw [ops] at answers
  have run : Master.readFrame addr c net =
      (let ended := Master.transaction [readOpcode, highByte addr, lowByte addr, 0] c net
       ((ended.1.1.getLastD 0, ended.1.2), ended.2)) := by
    simp only [Master.readFrame, Master.bind_run, Master.pure_run]
  rw [run]
  dsimp only
  rw [answers]
  exact ⟨rfl, unchanged, ready⟩

/-- Frames that read from an address on. -/
theorem readFrames (h : c.Ready calm net) (model : c.model = .w5100) (addr : UInt16) (len : Nat) :
    let ended := Master.readFrames addr len c net
    ended.1.1 = (List.range len).map (fun i => c.memory.read (addr + UInt16.ofNat i).toUInt32) ∧
      ended.1.2.memory = c.memory ∧ ended.1.2.Ready calm ended.2 := by
  induction len generalizing c net addr with
  | zero => exact ⟨rfl, rfl, h⟩
  | succ len ih =>
    obtain ⟨first, unchanged, ready⟩ := h.readFrame model addr
    have same : (Master.readFrame addr c net).1.2.model = .w5100 := (congrArg (·.model) unchanged).trans model
    obtain ⟨rest, unchanged', ready'⟩ := ih ready same (addr + 1)
    have start : addr + UInt16.ofNat 0 = addr := UInt16.add_zero addr
    rw [Master.readFrames, List.range_succ_eq_map, List.map_cons, List.map_map, start]
    simp only [Master.bind_run, Master.pure_run, rest, first, offset_succ, Function.comp_def]
    refine ⟨?_, unchanged'.trans unchanged, ready'⟩
    rw [unchanged]

theorem readBurst_run (addr : UInt16) (block : UInt8) (len : Nat) (c : Chip) (net : ν) :
    Master.readBurst addr block len c net =
      (let sent := [highByte addr, lowByte addr, controlByte block false] ++ List.replicate len 0
       let ended := Master.transaction sent c net
       ((ended.1.1.drop 3, ended.1.2), ended.2)) := by
  simp only [Master.readBurst, Master.bind_run, Master.pure_run]

/-- A burst that reads from an address on. -/
theorem readBurst (h : c.Ready calm net) (model : c.model = .w5500) {block : UInt8} (known : block.toNat < 32)
    (addr : UInt16) (len : Nat) :
    let ended := Master.readBurst addr block len c net
    ended.1.1 = (List.range len).map (fun i => c.memory.read (readAddr block addr i)) ∧
      ended.1.2.memory = c.memory ∧ ended.1.2.Ready calm ended.2 := by
  have ops (events : List (Option BusEvent)) := operations_readBurst known addr (List.replicate len 0) events
  rw [← model] at ops
  have reads : ∀ op ∈ (Decoder.idle c.model).operations
      (arriving ([highByte addr, lowByte addr, controlByte block false] ++ List.replicate len 0) ++ [some .release]),
      Reads op := by
    rw [ops]
    intro op member
    rcases List.mem_append.mp member with member | member
    · rcases List.mem_append.mp member with member | member
      · simp only [List.mem_cons, List.not_mem_nil, or_false, or_self] at member
        rw [member]
        trivial
      · obtain ⟨i, -, rfl⟩ := List.mem_map.mp member
        trivial
    · obtain rfl := List.mem_singleton.mp member
      trivial
  obtain ⟨answers, unchanged, ready⟩ := h.transaction reads
  have all := ops []
  rw [List.append_nil, Decoder.operations, List.append_nil, List.length_replicate] at all
  rw [all] at answers
  have length :
      ([highByte addr, lowByte addr, controlByte block false] ++ List.replicate len (0 : UInt8)).length = len + 3 := by
    rw [List.length_append, List.length_replicate]
    exact Nat.add_comm 3 len
  have values (n : Nat) : ((List.range n).map fun i => some (.read (readAddr block addr i))).map c.memory.answer =
      (List.range n).map fun i => c.memory.read (readAddr block addr i) := by
    rw [List.map_map]
    rfl
  rw [length, List.map_append, values] at answers
  rw [readBurst_run]
  dsimp only
  refine ⟨?_, unchanged, ready⟩
  rw [answers]
  change (((List.range (len + 1)).map fun i => c.memory.read (readAddr block addr i)).take len) = _
  rw [List.range_succ, List.map_append, List.take_left' (by rw [List.length_map, List.length_range])]

/-! ## Writes -/

theorem reads_replicate (n : Nat) : ∀ op ∈ List.replicate n none, Reads op := by
  intro op member
  rw [List.eq_of_mem_replicate member]
  trivial

/-- A transaction with one operation among reads. -/
theorem transaction_among (h : c.Ready calm net) {bs : Bytes} {op : Option MemoryOp} {m' : AddressSpace}
    (step : ∀ net, calm net → (c.memory.tick op net).1 = m' ∧ calm (c.memory.tick op net).2) (still : m'.Still calm)
    {n k : Nat} (ops : transactionOps (.idle c.model) bs = List.replicate n none ++ op :: List.replicate k none) :
    let ended := Master.transaction bs c net
    ended.1.2.memory = m' ∧ ended.1.2.Ready calm ended.2 := by
  intro ended
  obtain ⟨-, run⟩ := transaction_performs bs (.idle c.model) c net h.rest.toBetween
  obtain ⟨ticked, now⟩ := h.still.ticks_among h.now step still (reads_replicate n) (reads_replicate k)
  rw [ops] at run
  have memory : ended.1.2.memory = m' := (congrArg Prod.fst run).trans ticked
  have host : ended.2 = (c.memory.ticks (List.replicate n none ++ op :: List.replicate k none) net).2 :=
    congrArg Prod.snd run
  exact ⟨memory, (h.rest.transaction bs net).2.2.2, memory ▸ still, host ▸ now⟩

theorem writeFrame_run (addr : UInt16) (value : UInt8) (c : Chip) (net : ν) :
    Master.writeFrame addr value c net =
      (((), (Master.transaction [writeOpcode, highByte addr, lowByte addr, value] c net).1.2),
        (Master.transaction [writeOpcode, highByte addr, lowByte addr, value] c net).2) := by
  simp only [Master.writeFrame, Master.bind_run, Master.pure_run]

theorem writeFrame (h : c.Ready calm net) (model : c.model = .w5100) {addr : UInt16} (inside : InRings addr.toUInt32)
    (value : UInt8) :
    let ended := Master.writeFrame addr value c net
    ended.1.2.memory = c.memory.put (route addr.toUInt32) value ∧ ended.1.2.Ready calm ended.2 := by
  have ops : transactionOps (.idle c.model) [writeOpcode, highByte addr, lowByte addr, value] =
      List.replicate 64 none ++ some (.write addr.toUInt32 value) :: List.replicate 1 none := by
    rw [model]
    exact frame_ops addr value
  rw [writeFrame_run]
  dsimp only
  exact h.transaction_among (fun _ now => h.still.tick_write now inside value) (h.still.put inside value) ops

theorem writeFrames (h : c.Ready calm net) (model : c.model = .w5100) {addr : UInt16} {data : Bytes}
    (inside : ∀ i < data.length, InRings (addr + UInt16.ofNat i).toUInt32) :
    let ended := Master.writeFrames addr data c net
    ended.1.2.memory = c.memory.putAll (fun i => route (addr + UInt16.ofNat i).toUInt32) data ∧
      ended.1.2.Ready calm ended.2 := by
  induction data generalizing c net addr with
  | nil => exact ⟨rfl, h⟩
  | cons b bs ih =>
    have start : addr + UInt16.ofNat 0 = addr := UInt16.add_zero addr
    have here : InRings addr.toUInt32 := start ▸ inside 0 (Nat.succ_pos _)
    obtain ⟨first, ready⟩ := h.writeFrame model here b
    have same : (Master.writeFrame addr b c net).1.2.model = .w5100 := by
      rw [Chip.model, first, model_put]
      exact model
    have later (i : Nat) (lt : i < bs.length) : InRings (addr + 1 + UInt16.ofNat i).toUInt32 := by
      rw [offset_succ]
      exact inside (i + 1) (Nat.succ_lt_succ lt)
    have rest := ih ready same later
    rw [Master.writeFrames, Master.bind_run, putAll, start, ← first]
    simp only [offset_succ] at rest
    exact rest

theorem writeBurst_run (addr : UInt16) (block : UInt8) (data : Bytes) (c : Chip) (net : ν) :
    Master.writeBurst addr block data c net =
      (((), (Master.transaction ([highByte addr, lowByte addr, controlByte block true] ++ data) c net).1.2),
        (Master.transaction ([highByte addr, lowByte addr, controlByte block true] ++ data) c net).2) := by
  simp only [Master.writeBurst, Master.bind_run, Master.pure_run]

theorem writeBurst (h : c.Ready calm net) (model : c.model = .w5500) {block : UInt8} (known : block.toNat < 32)
    {addr : UInt16} {data : Bytes} (inside : data ≠ [] → InRings (blockAddr block addr)) :
    let ended := Master.writeBurst addr block data c net
    ended.1.2.memory = c.memory.putAll (fun i => route (writeAddr block addr i)) (data.take maxBurst) ∧
      ended.1.2.Ready calm ended.2 := by
  rw [writeBurst_run]
  dsimp only
  by_cases nonempty : data = []
  · subst nonempty
    have ops := (operations_header known addr [some .release]).2
    rw [← model] at ops
    rw [List.append_nil, List.take_nil]
    exact (h.transaction fun op member => by
      rw [ops] at member
      simp only [Decoder.operations, List.mem_cons, List.not_mem_nil, or_false] at member
      rcases member with rfl | rfl | rfl | rfl <;> trivial).2
  · have ops : transactionOps (.idle c.model) ([highByte addr, lowByte addr, controlByte block true] ++ data) =
        List.replicate (49 + 16 * data.length) none ++
          some (.burst (blockAddr block addr) (data.take maxBurst)) :: List.replicate 0 none := by
      rw [model]
      exact block_ops known addr nonempty
    exact h.transaction_among (fun _ now => h.still.tick_burst now (inside nonempty) _)
      (h.still.putAll fun i _ => inRings_burstAddr (inside nonempty) i) ops

end Chip.Ready

/-! ## Both models -/

theorem Master.write_eq (addr : UInt16) (data : Bytes) (c : Chip) (net : ν) :
    Master.write addr data c net = (match c.model with
      | .w5100 => Master.writeFrames addr data
      | .w5500 => Master.writeBurst addr 0 data) c net := rfl

theorem Master.read_eq (addr : UInt16) (len : Nat) (c : Chip) (net : ν) :
    Master.read addr len c net = (match c.model with
      | .w5100 => Master.readFrames addr len
      | .w5500 => Master.readBurst addr 0 len) c net := rfl

/-- Byte `i` of a flat range. -/
def flatAddr (addr : UInt16) (i : Nat) : UInt32 := UInt32.ofNat (addr.toNat + i)

/-- Byte `i` from an address on around the ring in which the address lies. -/
def ringAddr (addr : UInt16) (i : Nat) : UInt32 :=
  UInt32.ofNat (addr.toNat - addr.toNat % ringSize + (addr.toNat % ringSize + i) % ringSize)

namespace AddressSpace

/-- Bytes have been stored in their places, and nothing else reads differently. -/
def Stored (m m' : AddressSpace) (place : Nat → UInt32) (data : Bytes) : Prop :=
  (∀ i (lt : i < data.length), m'.read (place i) = data[i]) ∧
    ∀ x, (∀ i < data.length, place i ≠ x) → m'.read x = m.read x

theorem stored_putAll (m : AddressSpace) {place : Nat → UInt32} {data : Bytes}
    (inside : ∀ i < data.length, InRings (place i)) (apart : ∀ j k, j < k → k < data.length → place k ≠ place j) :
    m.Stored (m.putAll (fun i => route (place i)) data) place data := by
  have plain (i : Nat) (lt : i < data.length) : (route (place i)).Plain := plain_inRings (inside i lt)
  have distinct {i : Nat} (lt : i < data.length) {x : UInt32} (ne : place i ≠ x) : route (place i) ≠ route x :=
    fun same => (route_eq_route.mp same).elim ne fun unmapped => (plain i lt).mapped unmapped.1
  refine ⟨fun i lt => ?_, fun x other => ?_⟩
  · rw [read_eq_byteAt]
    exact byteAt_putAll_self m plain (fun j k lt lt' => distinct lt' (apart j k lt lt')) lt
  · rw [read_eq_byteAt, read_eq_byteAt]
    exact byteAt_putAll_of_ne m plain fun i lt => distinct lt (other i lt)

variable {m m' : AddressSpace} {place place' : Nat → UInt32} {data : Bytes}

theorem Stored.congr (h : m.Stored m' place data) (same : ∀ i < data.length, place i = place' i) :
    m.Stored m' place' data :=
  ⟨fun i lt => same i lt ▸ h.1 i lt, fun x other => h.2 x fun i lt => same i lt ▸ other i lt⟩

/-- Stored bytes are read back. -/
theorem Stored.read_back (h : m.Stored m' place data) (same : ∀ i < data.length, place' i = place i) :
    (List.range data.length).map (fun i => m'.read (place' i)) = data := by
  apply List.ext_getElem
  · rw [List.length_map, List.length_range]
  · intro i _ lt
    rw [List.getElem_map, List.getElem_range, same i lt, h.1 i lt]

/-- The same bytes in the same places make the same rings of the same rings. -/
theorem Stored.rings {m₂ m₂' : AddressSpace} (h : m.Stored m' place data) (h₂ : m₂.Stored m₂' place data)
    (same : ∀ x, InRings x → m.read x = m₂.read x) {x : UInt32} (inside : InRings x) : m'.read x = m₂'.read x := by
  by_cases here : ∃ i, ∃ _ : i < data.length, place i = x
  · obtain ⟨i, lt, rfl⟩ := here
    rw [h.1 i lt, h₂.1 i lt]
  · have other (i : Nat) (lt : i < data.length) : place i ≠ x := fun eq => here ⟨i, lt, eq⟩
    rw [h.2 x other, h₂.2 x other, same x inside]

end AddressSpace

section

variable {addr : UInt16} {i : Nat}

theorem toUInt32_offset (small : addr.toNat + i < 0x10000) : (addr + UInt16.ofNat i).toUInt32 = flatAddr addr i := by
  rw [← UInt32.toNat_inj, UInt16.toNat_toUInt32, toNat_offset, flatAddr, UInt32.toNat_ofNat']
  omega

theorem readAddr_flat (small : addr.toNat + i < 0x10000) : readAddr 0 addr i = flatAddr addr i := by
  have ring : isRingBlock 0 = false := rfl
  have base : (blockBase 0).toNat = 0 := rfl
  rw [← UInt32.toNat_inj, readAddr, toNat_blockAddr, ring, base, toNat_offset, flatAddr, UInt32.toNat_ofNat',
    if_neg Bool.false_ne_true]
  omega

theorem burstAddr_ring (inside : InRings addr.toUInt32) : burstAddr addr.toUInt32 i = ringAddr addr i := by
  have low := inside.1
  have high := inside.2
  rw [UInt16.toNat_toUInt32] at low high
  rw [← UInt32.toNat_inj, toNat_burstAddr inside, ringAddr, UInt32.toNat_ofNat', UInt16.toNat_toUInt32]
  simp only [ringSize]
  omega

theorem ringAddr_flat (short : addr.toNat % ringSize + i < ringSize) : ringAddr addr i = flatAddr addr i := by
  rw [ringAddr, flatAddr, Nat.mod_eq_of_lt short]
  congr 1
  have := Nat.mod_le addr.toNat ringSize
  omega

end

section

variable {c : Chip} {calm : ν → Prop} {net : ν} {addr : UInt16} {data : Bytes}
  (inside : ∀ i < data.length, 0x4000 ≤ addr.toNat + i ∧ addr.toNat + i < 0x8000)

include inside

/-- Frames store each byte at its own address. -/
theorem Chip.Ready.write_frames (h : c.Ready calm net) (model : c.model = .w5100) :
    let ended := Master.write addr data c net
    c.memory.Stored ended.1.2.memory (flatAddr addr) data ∧
      (Master.read addr data.length ended.1.2 ended.2).1.1 = data := by
  have place (i : Nat) (lt : i < data.length) : (addr + UInt16.ofNat i).toUInt32 = flatAddr addr i := by
    have := inside i lt
    exact toUInt32_offset (by omega)
  have rings (i : Nat) (lt : i < data.length) : InRings (addr + UInt16.ofNat i).toUInt32 := by
    have := inside i lt
    rw [place i lt, InRings, flatAddr, UInt32.toNat_ofNat']
    omega
  have apart (j k : Nat) (lt : j < k) (lt' : k < data.length) :
      (addr + UInt16.ofNat k).toUInt32 ≠ (addr + UInt16.ofNat j).toUInt32 := by
    have := inside k lt'
    rw [place k lt', place j (Nat.lt_trans lt lt'), flatAddr, flatAddr, ne_eq, ← UInt32.toNat_inj, UInt32.toNat_ofNat',
      UInt32.toNat_ofNat']
    omega
  have write : Master.write addr data c net = Master.writeFrames addr data c net := by rw [Master.write_eq, model]
  obtain ⟨memory, ready⟩ := h.writeFrames model rings
  have stored := c.memory.stored_putAll rings apart
  rw [← memory] at stored
  rw [write]
  generalize Master.writeFrames addr data c net = ended at memory ready stored
  have model' : ended.1.2.model = .w5100 := by rw [Chip.model, memory, model_putAll]; exact model
  have read : Master.read addr data.length ended.1.2 ended.2 = Master.readFrames addr data.length ended.1.2 ended.2 := by
    rw [Master.read_eq, model']
  refine ⟨stored.congr place, ?_⟩
  rw [read, (ready.readFrames model' addr data.length).1]
  exact stored.read_back fun _ _ => rfl

/-- A burst stores its bytes around the ring in which it starts. -/
theorem Chip.Ready.write_burst (h : c.Ready calm net) (model : c.model = .w5500) (fits : data.length ≤ maxBurst) :
    let ended := Master.write addr data c net
    c.memory.Stored ended.1.2.memory (ringAddr addr) data ∧
      (addr.toNat % ringSize + data.length ≤ ringSize →
        (Master.read addr data.length ended.1.2 ended.2).1.1 = data) := by
  have start {i : Nat} (lt : i < data.length) : InRings addr.toUInt32 := by
    have := inside 0 (Nat.zero_lt_of_lt lt)
    rwa [InRings, UInt16.toNat_toUInt32]
  have write : Master.write addr data c net = Master.writeBurst addr 0 data c net := by rw [Master.write_eq, model]
  have flat : blockAddr 0 addr = addr.toUInt32 := blockAddr_flat addr
  have known : (0 : UInt8).toNat < 32 := by decide
  obtain ⟨memory, ready⟩ := h.writeBurst model known fun nonempty => flat ▸ start (List.length_pos_iff.mpr nonempty)
  simp only [writeAddr, flat, List.take_of_length_le fits] at memory
  have rings (i : Nat) (lt : i < data.length) : InRings (burstAddr addr.toUInt32 i) := inRings_burstAddr (start lt) i
  have stored := c.memory.stored_putAll rings fun j k lt lt' => burstAddr_ne _ lt (Nat.lt_of_lt_of_le lt' fits)
  rw [← memory] at stored
  rw [write]
  generalize Master.writeBurst addr 0 data c net = ended at memory ready stored
  have model' : ended.1.2.model = .w5500 := by rw [Chip.model, memory, model_putAll]; exact model
  have read : Master.read addr data.length ended.1.2 ended.2 = Master.readBurst addr 0 data.length ended.1.2 ended.2 := by
    rw [Master.read_eq, model']
  refine ⟨stored.congr fun i lt => burstAddr_ring (start lt), fun short => ?_⟩
  rw [read, (ready.readBurst model' known addr data.length).1]
  refine stored.read_back fun i lt => ?_
  have := inside i lt
  rw [readAddr_flat (by omega), burstAddr_ring (start lt), ringAddr_flat (by omega)]

end

/-- **Flat access to the rings on both models.** Of two chips at rest whose sockets stay still and whose
rings are the same, a write of bytes to addresses in the rings stores them on the W5100 each at its own
address, and on the W5500 from the first address on around the ring in which that lies; nothing else
reads differently. The W5100 always gives the bytes back. If the addresses lie in one ring, the rings
of the chips are the same again, and the W5500 gives the bytes back as well. -/
theorem flat_access {ν ν' : Type} [NetHost ν] [NetHost ν'] {calm : ν → Prop} {calm' : ν' → Prop} (c c' : Chip)
    (net : ν) (net' : ν') (addr : UInt16) (data : Bytes) (ready : c.Ready calm net) (ready' : c'.Ready calm' net')
    (model : c.model = .w5100) (model' : c'.model = .w5500)
    (rings : ∀ x, InRings x → c.memory.read x = c'.memory.read x) (fits : data.length ≤ maxBurst)
    (inside : ∀ i < data.length, 0x4000 ≤ addr.toNat + i ∧ addr.toNat + i < 0x8000) :
    let ended := Master.write addr data c net
    let ended' := Master.write addr data c' net'
    c.memory.Stored ended.1.2.memory (flatAddr addr) data ∧
    c'.memory.Stored ended'.1.2.memory (ringAddr addr) data ∧
    (Master.read addr data.length ended.1.2 ended.2).1.1 = data ∧
    (addr.toNat % ringSize + data.length ≤ ringSize →
      (∀ x, InRings x → ended.1.2.memory.read x = ended'.1.2.memory.read x) ∧
      (Master.read addr data.length ended'.1.2 ended'.2).1.1 = data) := by
  obtain ⟨stored, read⟩ := ready.write_frames inside model
  obtain ⟨stored', read'⟩ := ready'.write_burst inside model' fits
  refine ⟨stored, stored', read, fun short => ⟨fun x at_ring => ?_, read' short⟩⟩
  exact stored.rings (stored'.congr fun i lt => ringAddr_flat (by omega)) rings at_ring

theorem ready_powerOn (model : ChipModel) (net : ν) : (Chip.powerOn model {}).Ready (fun _ : ν => True) net :=
  ⟨Chip.atRest_powerOn model {}, still_powerOn model {}, trivial⟩

theorem rings_powerOn {x : UInt32} (inside : InRings x) :
    (Chip.powerOn .w5100 {}).memory.read x = (Chip.powerOn .w5500 {}).memory.read x := by
  have sockets : (Chip.powerOn .w5100 {}).memory.sockets = (Chip.powerOn .w5500 {}).memory.sockets := rfl
  rw [read_eq_byteAt, read_eq_byteAt]
  rcases route_inRings inside with ⟨s, target, -⟩ | ⟨s, target, -⟩ <;> rw [target, byteAt, byteAt, sockets]

/-- The last two cells of a ring. -/
theorem flat_access_last_cells :
    let ended := Master.write 0x47FE [1, 2] (Chip.powerOn .w5500 {}) Flood.flood
    (Master.read 0x47FE 2 ended.1.2 ended.2).1.1 = [1, 2] := by
  have inside : ∀ i < ([1, 2] : Bytes).length,
      0x4000 ≤ (0x47FE : UInt16).toNat + i ∧ (0x47FE : UInt16).toNat + i < 0x8000 := by decide
  have access := flat_access (Chip.powerOn .w5100 {}) (Chip.powerOn .w5500 {}) Flood.flood Flood.flood 0x47FE [1, 2]
    (ready_powerOn _ _) (ready_powerOn _ _) rfl rfl (fun _ => rings_powerOn) (by decide) inside
  have last := access.2.2.2 (by decide)
  have two : ([1, 2] : Bytes).length = 2 := rfl
  rw [two] at last
  exact last.2

/-- From the last cell of a ring on the two models part: the second byte goes to the next ring on the
W5100 and around the ring on the W5500. -/
theorem flat_access_past_ring_end :
    (Chip.powerOn .w5100 {}).Ready (fun _ : Flood => True) .flood ∧
    (Chip.powerOn .w5500 {}).Ready (fun _ : Flood => True) .flood ∧
    (∀ x, InRings x → (Chip.powerOn .w5100 {}).memory.read x = (Chip.powerOn .w5500 {}).memory.read x) ∧
    (∀ i < ([1, 2] : Bytes).length,
      0x4000 ≤ (0x47FF : UInt16).toNat + i ∧ (0x47FF : UInt16).toNat + i < 0x8000) ∧
    ¬(let ended := Master.write 0x47FF [1, 2] (Chip.powerOn .w5100 {}) Flood.flood
      let ended' := Master.write 0x47FF [1, 2] (Chip.powerOn .w5500 {}) Flood.flood
      (∀ x, InRings x → ended.1.2.memory.read x = ended'.1.2.memory.read x) ∧
      (Chip.powerOn .w5500 {}).memory.Stored ended'.1.2.memory (flatAddr 0x47FF) [1, 2]) := by
  have inside : ∀ i < ([1, 2] : Bytes).length,
      0x4000 ≤ (0x47FF : UInt16).toNat + i ∧ (0x47FF : UInt16).toNat + i < 0x8000 := by decide
  have around := ((ready_powerOn .w5500 Flood.flood).write_burst inside rfl (by decide)).1
  have other : ∀ i < ([1, 2] : Bytes).length, ringAddr 0x47FF i ≠ flatAddr 0x47FF 1 := by decide
  have kept := around.2 (flatAddr 0x47FF 1) other
  refine ⟨ready_powerOn _ _, ready_powerOn _ _, fun _ => rings_powerOn, inside, ?_⟩
  intro same
  have second := same.2.1 1 (by decide)
  rw [kept] at second
  exact absurd second (by decide +kernel)

end EtherChip

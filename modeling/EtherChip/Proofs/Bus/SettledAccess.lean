import EtherChip.Proofs.Bus.FlatAccess

/-!
# Flat access between sockets that stay still

A write to a register can change more than its cell: a command changes the socket and the host. Such
writes still mean the same on both models as long as every socket stays still after each byte
(`AddressSpace.Settles`): the steps of the chip between the bytes and after them do nothing then, so it
makes no difference that frames bring the bytes one by one and a burst all at once
(`Chip.Ready.write_settles`). A read gives what stands at its addresses and changes nothing
(`Chip.Ready.read_flat`).
-/
namespace EtherChip

open AddressSpace Master

variable {ν : Type} [NetHost ν]

namespace AddressSpace

/-- Bytes are written one after the other from an address on, and after each of them every socket stays
still on the host as it is then. -/
inductive Settles : AddressSpace → ν → UInt16 → Bytes → AddressSpace → ν → Prop
  | done {m : AddressSpace} {net : ν} {addr : UInt16} : Settles m net addr [] m net
  | byte {m m' m'' : AddressSpace} {net net' net'' : ν} {addr : UInt16} {b : UInt8} {bs : Bytes}
      (written : m.write addr.toUInt32 b net = (m', net')) (still : m'.Still (· = net'))
      (rest : Settles m' net' (addr + 1) bs m'' net'') : Settles m net addr (b :: bs) m'' net''

variable {m m' : AddressSpace} {net net' : ν} {addr : UInt16} {data : Bytes}

theorem Settles.still (h : Settles m net addr data m' net') (still : m.Still (· = net)) : m'.Still (· = net') := by
  induction h with
  | done => exact still
  | byte _ still' _ ih => exact ih still'

namespace Still

theorem poll_run (h : m.Still (· = net)) : m.poll net = (m, net) := Prod.ext (h.poll rfl).1 (h.poll rfl).2

/-- Steps without an operation do nothing. -/
theorem ticks_none (h : m.Still (· = net)) (n : Nat) : m.ticks (List.replicate n none) net = (m, net) := by
  have silent := h.ticks_reads rfl (Chip.Ready.reads_replicate n)
  exact Prod.ext silent.1 silent.2

/-- One operation among steps without any. -/
theorem ticks_one (h : m.Still (· = net)) {op : Option MemoryOp} (step : m.tick op net = (m', net'))
    (still : m'.Still (· = net')) (n k : Nat) :
    m.ticks (List.replicate n none ++ op :: List.replicate k none) net = (m', net') := by
  rw [ticks_append, h.ticks_none n, ticks, bind_run, step]
  exact still.ticks_none k

end Still

/-- A write and the step in which it is carried out. -/
theorem tick_settled {x : UInt32} {b : UInt8} (written : m.write x b net = (m', net')) (still : m'.Still (· = net')) :
    m.tick (some (.write x b)) net = (m', net') := by
  have run : m.tick (some (.write x b)) net = (m.write x b net).1.poll (m.write x b net).2 := rfl
  rw [run, written]
  exact still.poll_run

/-- Frames carry each byte out in a step of its own. -/
theorem Settles.ticks_frames (h : Settles m net addr data m' net') (still : m.Still (· = net)) :
    m.ticks (frameOps addr data) net = (m', net') := by
  induction h with
  | done => rfl
  | byte written still' rest ih =>
    -- A frame with no operation until its byte is complete, and one more step while the chip is released.
    have first := still.ticks_one (tick_settled written still') still' 64 1
    rw [frameOps, frame_ops, ticks_append]
    rw [List.replicate_one] at first
    rw [first]
    exact ih still'

/-- A burst carries all bytes out, from byte `i` of its walk on. -/
theorem Settles.writeBurstFrom (h : Settles m net addr data m' net') {start : UInt32} {i : Nat}
    (walk : ∀ j < data.length, burstAddr start (i + j) = (addr + UInt16.ofNat j).toUInt32) :
    m.writeBurstFrom start i data net = (m', net') := by
  induction h generalizing i with
  | done => rfl
  | @byte _ _ _ _ _ _ addr b bs written _ _ ih =>
    have origin : addr + UInt16.ofNat 0 = addr := UInt16.add_zero addr
    have first : burstAddr start i = addr.toUInt32 := origin ▸ walk 0 (Nat.succ_pos _)
    have later (j : Nat) (lt : j < bs.length) : burstAddr start (i + 1 + j) = (addr + 1 + UInt16.ofNat j).toUInt32 := by
      have next : i + 1 + j = i + (j + 1) := by omega
      rw [next, offset_succ]
      exact walk (j + 1) (Nat.succ_lt_succ lt)
    rw [AddressSpace.writeBurstFrom, bind_run, first, written]
    exact ih later

theorem Settles.ticks_burst (h : Settles m net addr data m' net') (still : m.Still (· = net)) (nonempty : data ≠ [])
    (fits : data.length ≤ maxBurst)
    (walk : ∀ j < data.length, burstAddr addr.toUInt32 j = (addr + UInt16.ofNat j).toUInt32) :
    m.ticks (writeOps .w5500 addr data) net = (m', net') := by
  have written : m.writeBurstFrom addr.toUInt32 0 data net = (m', net') := h.writeBurstFrom fun j lt => by
    rw [Nat.zero_add]
    exact walk j lt
  have run : m.tick (some (.burst addr.toUInt32 data)) net =
      (m.writeBurstFrom addr.toUInt32 0 data net).1.poll (m.writeBurstFrom addr.toUInt32 0 data net).2 := rfl
  rw [written] at run
  rw [writeOps, burst_ops addr nonempty fits]
  exact still.ticks_one (run.trans (h.still still).poll_run) (h.still still) _ 0

end AddressSpace

namespace Chip

/-- A flat write ends between transactions. -/
theorem AtRest.write {c : Chip} (rest : c.AtRest) (addr : UInt16) (data : Bytes) (net : ν) :
    (Master.write addr data c net).1.2.AtRest := by
  rw [write_eq]
  cases c.model with
  | w5100 =>
    dsimp only
    induction data generalizing c net addr with
    | nil => exact rest
    | cons b bs ih =>
      have first : (Master.writeFrame addr b c net).1.2.AtRest := by
        rw [Ready.writeFrame_run]
        dsimp only
        exact (rest.transaction _ net).2.2.2
      rw [writeFrames, Master.bind_run]
      exact ih first _ _
  | w5500 =>
    dsimp only
    rw [Ready.writeBurst_run]
    dsimp only
    exact (rest.transaction _ net).2.2.2

namespace Ready

variable {c : Chip} {net net' : ν} {addr : UInt16} {data : Bytes} {m' : AddressSpace}

/-- **A write of bytes after each of which the sockets stay still** means the same on both models: the
bytes are written one after the other, and nothing else happens. Bytes for a ring are written in frames
upward and in bursts around the ring, so they may not pass its end. -/
theorem write_settles (h : c.Ready (· = net) net) (settles : Settles c.memory net addr data m' net')
    (nonempty : data ≠ []) (fits : data.length ≤ maxBurst) (bound : addr.toNat + data.length ≤ 0x10000)
    (short : InRings addr.toUInt32 → addr.toNat % ringSize + data.length ≤ ringSize) :
    ∃ c', Master.write addr data c net = (((), c'), net') ∧ c'.memory = m' ∧ c'.Ready (· = net') net' := by
  have walk (j : Nat) (lt : j < data.length) : burstAddr addr.toUInt32 j = (addr + UInt16.ofNat j).toUInt32 := by
    rw [toUInt32_offset (by omega)]
    by_cases inside : InRings addr.toUInt32
    · have := short inside
      rw [burstAddr_ring inside, ringAddr_flat (by omega)]
    · rw [burstAddr_upward inside, flatAddr, ← UInt32.toNat_inj, UInt32.toNat_add, UInt16.toNat_toUInt32,
        UInt32.toNat_ofNat', UInt32.toNat_ofNat']
      omega
  have ticks : c.memory.ticks (writeOps c.model addr data) net = (m', net') := by
    cases c.model with
    | w5100 => exact settles.ticks_frames h.still
    | w5500 => exact settles.ticks_burst h.still nonempty fits walk
  have run := (write_performs c.model addr data c net ⟨h.rest.toBetween, rfl⟩).2.trans ticks
  have rest := h.rest.write addr data net
  generalize Master.write addr data c net = ended at run rest
  obtain ⟨⟨_, c'⟩, net''⟩ := ended
  obtain ⟨rfl, rfl⟩ := Prod.mk.inj run
  exact ⟨c', rfl, rfl, rest, settles.still h.still, rfl⟩

/-- A run that has changed neither the memory nor the host is told by its result. -/
theorem ended {α : Type} {run : (α × Chip) × ν} {m : AddressSpace} {result : α} (h : run.1.2.Ready (· = net) run.2)
    (value : run.1.1 = result) (unchanged : run.1.2.memory = m) :
    ∃ c', run = ((result, c'), net) ∧ c'.memory = m ∧ c'.Ready (· = net) net := by
  obtain ⟨⟨_, c'⟩, net'⟩ := run
  obtain rfl : net' = net := h.now
  exact ⟨c', by rw [← value], unchanged, h⟩

/-- A read gives the bytes at its addresses on both models, and changes nothing. -/
theorem read_flat (h : c.Ready (· = net) net) (addr : UInt16) {len : Nat} (bound : addr.toNat + len ≤ 0x10000) :
    ∃ c', Master.read addr len c net = (((List.range len).map fun i => c.memory.read (flatAddr addr i), c'), net) ∧
      c'.memory = c.memory ∧ c'.Ready (· = net) net := by
  rw [read_eq]
  cases model : c.model with
  | w5100 =>
    dsimp only
    obtain ⟨values, unchanged, ready⟩ := h.readFrames model addr len
    have flat : (List.range len).map (fun i => c.memory.read (addr + UInt16.ofNat i).toUInt32) =
        (List.range len).map fun i => c.memory.read (flatAddr addr i) :=
      List.map_congr_left fun i member => by
        have := List.mem_range.mp member
        rw [toUInt32_offset (by omega)]
    exact ready.ended (values.trans flat) unchanged
  | w5500 =>
    dsimp only
    obtain ⟨values, unchanged, ready⟩ := h.readBurst model (show (0 : UInt8).toNat < 32 by decide) addr len
    have flat : (List.range len).map (fun i => c.memory.read (readAddr 0 addr i)) =
        (List.range len).map fun i => c.memory.read (flatAddr addr i) :=
      List.map_congr_left fun i member => by
        have := List.mem_range.mp member
        rw [readAddr_flat (by omega)]
    exact ready.ended (values.trans flat) unchanged

end Ready

end Chip

end EtherChip

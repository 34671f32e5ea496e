import EtherChip.Proofs.Bus.FlatAccess
import EtherChip.Proofs.Socket.RingCopy

/-!
# Bursts to the blocks of the rings

A block of a ring reaches that ring and nothing else. What is written through it goes around the ring
from the position that the address names, at most one ring's worth, and only once the chip is
deselected; what is read goes the same way (`ring_burst`).
-/
namespace EtherChip

open Waveform AddressSpace

/-! ## Rings and their blocks -/

/-- One of the two rings of a socket. -/
inductive RingSide where
  | tx
  | rx
  deriving DecidableEq, Repr

namespace RingSide

def target (side : RingSide) (n : Fin socketCount) (o : RingOffset) : Target :=
  match side with
  | tx => .tx n o
  | rx => .rx n o

def addr (side : RingSide) (n : Fin socketCount) (o : RingOffset) : UInt32 :=
  match side with
  | tx => txAddr n o
  | rx => rxAddr n o

/-- The block of a socket's ring. -/
def block (side : RingSide) (n : Fin socketCount) : UInt8 :=
  match side with
  | tx => UInt8.ofNat (4 * n.val + 2)
  | rx => UInt8.ofNat (4 * n.val + 3)

variable (side : RingSide) (n : Fin socketCount)

theorem toNat_addr (o : RingOffset) :
    (side.addr n o).toNat = (match side with | tx => 0x4000 | rx => 0x6000) + n.val * ringSize + o.val := by
  have := n.isLt
  have := o.isLt
  cases side <;> simp only [addr, txAddr, rxAddr, UInt32.toNat_ofNat', socketCount, ringSize] at * <;> omega

theorem inRings_addr (o : RingOffset) : InRings (side.addr n o) := by
  have := n.isLt
  have := o.isLt
  have flat := side.toNat_addr n o
  cases side <;> simp only [InRings, flat, socketCount, ringSize] at * <;> omega

theorem route_addr (o : RingOffset) : route (side.addr n o) = side.target n o := by
  have := n.isLt
  have := o.isLt
  have flat := side.toNat_addr n o
  have offset : RingOffset.ofNat (side.addr n o).toNat = o := by
    apply Fin.ext
    cases side <;> simp only [RingOffset.val_ofNat, flat, ringSize] at * <;> omega
  obtain ⟨s, found, base⟩ | ⟨s, found, base⟩ := route_inRings (side.inRings_addr n o) <;> rw [found, offset] <;> cases side
  all_goals simp only [flat, socketCount, ringSize] at *
  · rw [show s = n from Fin.ext (by omega), target]
  · omega
  · omega
  · rw [show s = n from Fin.ext (by omega), target]

theorem burstAddr_addr (o : RingOffset) (i : Nat) : burstAddr (side.addr n o) i = side.addr n (o.advance i) := by
  unfold burstAddr
  rw [route_addr]
  cases side <;> rfl

theorem blockAddr_block (a : UInt16) : blockAddr (side.block n) a = side.addr n (.ofWord a) := by
  have blocks : ∀ n : Fin socketCount, isRingBlock (side.block n) = true ∧
      (blockBase (side.block n)).toNat = (match side with | tx => 0x4000 | rx => 0x6000) + n.val * ringSize := by
    cases side <;> decide
  rw [← UInt32.toNat_inj, toNat_blockAddr, (blocks n).1, if_pos rfl, (blocks n).2, toNat_addr]
  rfl

theorem block_lt : (side.block n).toNat < 32 := by
  have := n.isLt
  cases side <;> simp only [block, UInt8.toNat_ofNat', socketCount] at * <;> omega

end RingSide

namespace Engine

def ring (e : Engine) : RingSide → Ring
  | .tx => e.tx
  | .rx => e.rx

def setRing (e : Engine) (side : RingSide) (r : Ring) : Engine :=
  match side with
  | .tx => { e with tx := r }
  | .rx => { e with rx := r }

variable (e : Engine) (side : RingSide)

@[simp] theorem ring_setRing (r : Ring) : (e.setRing side r).ring side = r := by
  cases side <;> rfl

@[simp] theorem setRing_setRing (r r' : Ring) : (e.setRing side r).setRing side r' = e.setRing side r' := by
  cases side <;> rfl

@[simp] theorem setRing_ring : e.setRing side (e.ring side) = e := by
  cases side <;> rfl

end Engine

namespace AddressSpace

theorem setSocket_setSocket (m : AddressSpace) (n : Fin socketCount) (e e' : Engine) :
    (m.setSocket n e).setSocket n e' = m.setSocket n e' := by
  simp only [setSocket, Vector.set_set]

theorem setSocket_get (m : AddressSpace) (n : Fin socketCount) : m.setSocket n (m.sockets.get n) = m := by
  have same : m.sockets.set n.val (m.sockets.get n) n.isLt = m.sockets := Vector.set_getElem_self n.isLt
  rw [setSocket, same]

variable (m : AddressSpace) (side : RingSide) (n : Fin socketCount)

theorem byteAt_ring (o : RingOffset) : m.byteAt (side.target n o) = ((m.sockets.get n).ring side).get o := by
  cases side <;> rfl

/-- Bytes put along a ring. -/
theorem putAll_ring (start : RingOffset) (data : Bytes) :
    m.putAll (fun i => side.target n (start.advance i)) data =
      m.setSocket n ((m.sockets.get n).setRing side (((m.sockets.get n).ring side).setAll start data)) := by
  induction data generalizing m start with
  | nil => rw [putAll, Ring.setAll, Engine.setRing_ring, setSocket_get]
  | cons b bs ih =>
    have first : m.put (side.target n start) b =
        m.setSocket n ((m.sockets.get n).setRing side (((m.sockets.get n).ring side).set start b)) := by
      cases side <;> rfl
    have later : (fun i => side.target n (start.advance (i + 1))) =
        fun i => side.target n ((start.advance 1).advance i) := funext fun i => by
      rw [RingOffset.advance_advance, Nat.add_comm]
    rw [putAll, later, ih, RingOffset.advance_zero, first, socket_setSocket_self, setSocket_setSocket, Engine.setRing_setRing,
      Engine.ring_setRing, Ring.setAll]

end AddressSpace

/-! ## While the chip is selected -/

namespace Decoder

theorem mem_operations_append {d : Decoder} {events : List (Option BusEvent)} {op : Option MemoryOp}
    (member : op ∈ d.operations events) (later : List (Option BusEvent)) : op ∈ d.operations (events ++ later) := by
  rw [operations_append]
  exact List.mem_append_left _ member

/-- Where bytes arrive does not matter for what the framing makes of them. -/
theorem operations_silent {d : Decoder} {events : List (Option BusEvent)} {bs : Bytes}
    (arrive : events.reduceOption = bs.map .byte) (silent : ∀ op ∈ d.operations (arriving bs), op = none) :
    ∀ op ∈ d.operations events, op = none := by
  induction events generalizing d bs with
  | nil => exact nofun
  | cons event events ih =>
    match event with
    | none => exact List.forall_mem_cons.mpr ⟨rfl, ih arrive silent⟩
    | some event =>
      rw [List.reduceOption_cons_of_some] at arrive
      cases bs with
      | nil => cases arrive
      | cons b bs =>
        obtain ⟨rfl, later⟩ := List.cons_eq_cons.mp arrive
        obtain ⟨first, rest⟩ := List.forall_mem_cons.mp silent
        exact List.forall_mem_cons.mpr ⟨first, ih later rest⟩

/-- A burst that writes asks for nothing while its bytes arrive. -/
theorem silent_writing (block : UInt8) (addr : UInt16) (kept : Array UInt8) (data : Bytes) :
    ∀ op ∈ (Decoder.burst (.writing block addr kept)).operations (arriving data), op = none := by
  induction data generalizing kept with
  | nil => exact nofun
  | cons b bs ih => exact List.forall_mem_cons.mpr ⟨rfl, ih _⟩

end Decoder

section

open Chip.Ready

variable {ν : Type} [NetHost ν] {c : Chip} {calm : ν → Prop} {net : ν}

/-- A chip at rest that carries nothing out but reads does nothing to its memory. -/
theorem Chip.Ready.follow_reads (h : c.Ready calm net) {w : Waveform}
    (reads : ∀ op ∈ (Decoder.idle c.model).operations (eventsAfter [] w), Reads op) :
    (c.follow w net).1.memory = c.memory := by
  have within : c.Within (lastRun []) := Chip.within_nil.mpr h.rest
  obtain ⟨-, refines, -⟩ := within.follow w net
  have memory := (congrArg (fun r => (r.1.memory, r.2)) refines).trans (c.bytewise.run_memory _ net)
  have decoder : c.bytewise.decoder = .idle c.model := h.rest.decoder
  rw [decoder] at memory
  exact (congrArg Prod.fst memory).trans (h.still.ticks_reads h.now reads).1

/-- A chip at rest does nothing to its memory while it is selected and its framing makes nothing of the
bytes that arrive. -/
theorem Chip.Ready.follow_silent (h : c.Ready calm net) {mosi : Bool} {bs : Bytes}
    (silent : ∀ op ∈ (Decoder.idle c.model).operations (arriving bs), op = none) {w : Waveform}
    (front : w <+: transactionWave mosi bs) (selected : ∀ l ∈ w, l.selected = true) :
    (c.follow w net).1.memory = c.memory := by
  obtain ⟨more, whole⟩ : w <+: selectedWave mosi bs := by
    rw [transactionWave_eq] at front
    obtain front | rfl := List.prefix_concat_iff.mp front |>.symm
    · exact front
    · exact absurd (selected _ (List.mem_append_right _ List.mem_cons_self)) Bool.false_ne_true
  obtain ⟨later, arrived⟩ := bytes_append w more
  rw [whole, bytes_selectedWave] at arrived
  have arrive : (eventsAfter [] w).reduceOption = (bytes w).map .byte := (events_selected [] selected).symm
  have quiet : ∀ op ∈ (Decoder.idle c.model).operations (eventsAfter [] w), op = none := by
    refine Decoder.operations_silent arrive fun op member => silent op ?_
    rw [arrived, arriving, List.map_append]
    exact Decoder.mem_operations_append member _
  refine h.follow_reads fun op member => ?_
  rw [quiet op member]
  trivial

/-! ## Whole bursts -/

variable (side : RingSide) (n : Fin socketCount)

theorem writeAddr_block (a : UInt16) (i : Nat) :
    route (writeAddr (side.block n) a i) = side.target n ((RingOffset.ofWord a).advance i) := by
  rw [writeAddr, side.blockAddr_block, side.burstAddr_addr, side.route_addr]

theorem readAddr_block (a : UInt16) (i : Nat) :
    route (readAddr (side.block n) a i) = side.target n ((RingOffset.ofWord a).advance i) := by
  rw [readAddr, side.blockAddr_block, side.route_addr, RingOffset.ofWord_add]

theorem Chip.Ready.writeRing (h : c.Ready calm net) (model : c.model = .w5500) (a : UInt16) (data : Bytes) :
    let ended := Master.writeBurst a (side.block n) data c net
    ∃ r, ((c.memory.sockets.get n).ring side).Written r (RingOffset.ofWord a) (data.take ringSize) ∧
      ended.1.2.memory = c.memory.setSocket n ((c.memory.sockets.get n).setRing side r) ∧
      ended.1.2.Ready calm ended.2 := by
  have inside : InRings (blockAddr (side.block n) a) := by
    rw [side.blockAddr_block]
    exact side.inRings_addr n _
  obtain ⟨memory, ready⟩ := h.writeBurst model (side.block_lt n) fun _ => inside
  simp only [writeAddr_block, putAll_ring] at memory
  exact ⟨_, Ring.written_setAll _ _ (List.length_take_le ..), memory, ready⟩

theorem Chip.Ready.readRing (h : c.Ready calm net) (model : c.model = .w5500) (a : UInt16) (len : Nat) :
    (Master.readBurst a (side.block n) len c net).1.1 =
      (List.range len).map fun i => ((c.memory.sockets.get n).ring side).get ((RingOffset.ofWord a).advance i) := by
  simp only [(h.readBurst model (side.block_lt n) a len).1, read_eq_byteAt, readAddr_block, byteAt_ring]

/-- A burst that writes asks for nothing until the chip is deselected. -/
theorem silent_writeBurst {block : UInt8} (known : block.toNat < 32) (a : UInt16) (data : Bytes) :
    ∀ op ∈ (Decoder.idle .w5500).operations (arriving ([highByte a, lowByte a, controlByte block true] ++ data)),
      op = none := by
  have header := (operations_header known a (arriving data)).2
  rw [arriving, List.map_append]
  change ∀ op ∈ (Decoder.idle .w5500).operations (arriving [_, _, _] ++ arriving data), op = none
  rw [header]
  intro op member
  simp only [List.mem_cons] at member
  obtain rfl | rfl | rfl | member := member
  · rfl
  · rfl
  · rfl
  · exact Decoder.silent_writing _ _ _ _ op member

/-- **Bursts to a ring's block are confined to the ring and read back.** On a W5500 at rest whose sockets
stay still, a burst of any length to the block of a ring stores its first 2048 bytes around the ring
from the position that the address names. Nothing else of the memory changes, and nothing at all as
long as the chip is selected. A burst of any length that reads from the same address then gives the
bytes of the ring from that position on, and so what was written if that was not too long. -/
theorem ring_burst (h : c.Ready calm net) (model : c.model = .w5500) (a : UInt16) (data : Bytes) :
    let wave := transactionWave c.lines.mosi ([highByte a, lowByte a, controlByte (side.block n) true] ++ data)
    let ended := Master.writeBurst a (side.block n) data c net
    ∃ r : Ring,
      ended.1.2.memory = c.memory.setSocket n ((c.memory.sockets.get n).setRing side r) ∧
      (∀ i (lt : i < data.length), i < ringSize → r.get (RingOffset.ofNat (a.toNat + i)) = data[i]) ∧
      (∀ o, (∀ i < min data.length ringSize, RingOffset.ofNat (a.toNat + i) ≠ o) →
        r.get o = ((c.memory.sockets.get n).ring side).get o) ∧
      (ended.1.2, ended.2) = c.follow wave net ∧
      (∀ w, w <+: wave → (∀ l ∈ w, l.selected = true) → (c.follow w net).1.memory = c.memory) ∧
      ended.1.2.Ready calm ended.2 ∧
      (∀ len, (Master.readBurst a (side.block n) len ended.1.2 ended.2).1.1 =
        (List.range len).map fun i => r.get (RingOffset.ofNat (a.toNat + i))) ∧
      (data.length ≤ ringSize →
        (Master.readBurst a (side.block n) data.length ended.1.2 ended.2).1.1 = data) := by
  intro wave
  obtain ⟨r, written, memory, ready⟩ := h.writeRing side n model a data
  have follows := (h.rest.transaction ([highByte a, lowByte a, controlByte (side.block n) true] ++ data) net).1
  rw [writeBurst_run] at memory ready ⊢
  dsimp only at memory ready ⊢
  generalize Master.transaction ([highByte a, lowByte a, controlByte (side.block n) true] ++ data) c net = ended
    at memory ready follows
  have model' : ended.1.2.model = .w5500 := by
    rw [Chip.model, memory]
    exact model
  have read (len : Nat) : (Master.readBurst a (side.block n) len ended.1.2 ended.2).1.1 =
      (List.range len).map fun i => r.get (RingOffset.ofNat (a.toNat + i)) := by
    rw [ready.readRing side n model' a len, memory, socket_setSocket_self, Engine.ring_setRing]
    simp only [RingOffset.advance_ofWord]
  have here (i : Nat) (lt : i < data.length) (turn : i < ringSize) :
      r.get (RingOffset.ofNat (a.toNat + i)) = data[i] := by
    rw [← RingOffset.advance_ofWord, written.get_advance (by rw [List.length_take]; omega) turn, List.getElem_take]
  refine ⟨r, memory, here, fun o other => written.get_of_ne fun i lt => ?_, follows, fun w front selected => ?_, ready,
    read, fun fits => ?_⟩
  · rw [RingOffset.advance_ofWord]
    exact other i (by rwa [List.length_take, Nat.min_comm] at lt)
  · have silent := silent_writeBurst (side.block_lt n) a data
    rw [← model] at silent
    exact h.follow_silent silent front selected
  · rw [read]
    apply List.ext_getElem
    · rw [List.length_map, List.length_range]
    · intro i _ lt
      rw [List.getElem_map, List.getElem_range, here i lt (Nat.lt_of_lt_of_le lt fits)]

/-- Three bytes over the end of a ring, from an address near the last word. -/
theorem ring_burst_over_end :
    (Chip.powerOn .w5500 {}).Ready (fun _ : Flood => True) .flood ∧
    let ended := Master.writeBurst 0xFFFE (RingSide.tx.block 2) [1, 2, 3] (Chip.powerOn .w5500 {}) Flood.flood
    (∃ r : Ring, ended.1.2.memory = (Chip.powerOn .w5500 {}).memory.setSocket 2
        (((Chip.powerOn .w5500 {}).memory.sockets.get 2).setRing .tx r) ∧
      r.get (RingOffset.ofNat 2046) = 1 ∧ r.get (RingOffset.ofNat 0) = 3) ∧
    (Master.readBurst 0xFFFE (RingSide.tx.block 2) 3 ended.1.2 ended.2).1.1 = [1, 2, 3] := by
  have ready := ready_powerOn .w5500 Flood.flood
  obtain ⟨r, memory, here, -, -, -, -, -, back⟩ := ring_burst .tx 2 ready rfl 0xFFFE [1, 2, 3]
  have first : RingOffset.ofNat ((0xFFFE : UInt16).toNat + 0) = RingOffset.ofNat 2046 := by decide
  have last : RingOffset.ofNat ((0xFFFE : UInt16).toNat + 2) = RingOffset.ofNat 0 := by decide
  have three : ([1, 2, 3] : Bytes).length = 3 := rfl
  have start := here 0 (by decide) (by decide)
  have stop := here 2 (by decide) (by decide)
  have whole := back (by decide)
  rw [first] at start
  rw [last] at stop
  rw [three] at whole
  dsimp only
  exact ⟨ready, ⟨r, memory, start, stop⟩, whole⟩

end

end EtherChip

import EtherChip.Proofs.Checked.Ring
import EtherChip.Proofs.Framing.Selection

/-!
# Addresses with checked arithmetic

What the map, the wrapping of bursts and the framing compute with addresses, in numbers of 32 bits and with a
table of bases that is indexed. Every address is routed to a place that there is (`route_inside`), and no burst
that a control byte can ask for leads past the end of the address space (`burst_inside`): a base and an offset
of 16 bits are at most 0x18FFF together, and a burst has at most 2048 bytes.
-/
namespace EtherChip.Checked

/-! ## The address map -/

/-- Where an address lands, in numbers that nothing but the map keeps in range. -/
inductive Place where
  | common (i : Nat)
  | register (socket cell : Nat)
  | tx (socket : Nat) (offset : UInt16)
  | rx (socket : Nat) (offset : UInt16)
  | unmapped
  deriving DecidableEq, Repr

/-- The numbers of a target. -/
def Place.ofTarget : Target → Place
  | .common i => .common i.val
  | .register socket cell => .register socket.val cell.val
  | .tx socket offset => .tx socket.val offset.toWord
  | .rx socket offset => .rx socket.val offset.toWord
  | .unmapped => .unmapped

/-- The number of the socket is one of four, and a cell or an offset is one of those that there are. -/
def Place.Inside : Place → Prop
  | .common i => i < commonSize
  | .register socket cell => socket < socketCount ∧ cell < 256
  | .tx socket offset | .rx socket offset => socket < socketCount ∧ offset.toNat < ringSize
  | .unmapped => True

def route (addr : UInt32) : Option Place := do
  let a := addr.toNat
  if a < commonSize then return .common a
  else if a < 0x4000 then
    if 0x400 ≤ a ∧ (a - 0x400) / 0x100 < socketCount then
      return .register ((a - 0x400) / 0x100) (addr &&& 0xFF).toNat
    else return .unmapped
  else if a < 0x6000 then return .tx ((← sub a 0x4000) / ringSize) (masked addr.toUInt16)
  else if a < 0x8000 then return .rx ((← sub a 0x6000) / ringSize) (masked addr.toUInt16)
  else return .unmapped

theorem masked_toUInt16 (addr : UInt32) : masked addr.toUInt16 = (RingOffset.ofNat addr.toNat).toWord := by
  rw [← masked_ofNat]
  congr 1

/-- Every address lands in range: at a cell of the common registers, at one of four sockets and there at an
offset inside its ring, or nowhere. -/
theorem route_eq (addr : UInt32) : route addr = some (.ofTarget (EtherChip.route addr)) := by
  unfold route EtherChip.route
  dsimp only
  by_cases common : addr.toNat < 0x100
  · rw [if_pos common, dif_pos common]
    rfl
  rw [if_neg common, dif_neg common]
  by_cases low : addr.toNat < 0x4000
  · rw [if_pos low]
    by_cases bank : 0x400 ≤ addr.toNat ∧ addr.toNat < 0x800
    · have cell : (addr &&& 0xFF).toNat = addr.toNat % 0x100 := by
        rw [UInt32.toNat_and]
        exact Nat.and_two_pow_sub_one_eq_mod addr.toNat 8
      rw [if_pos ⟨bank.1, by simp only [socketCount]; omega⟩, dif_pos bank, cell]
      rfl
    · rw [if_neg (by simp only [socketCount]; omega), dif_neg bank, dif_neg (by omega), dif_neg (by omega)]
      rfl
  · rw [if_neg low, dif_neg (by omega)]
    by_cases tx : addr.toNat < 0x6000
    · rw [if_pos tx, dif_pos ⟨by omega, tx⟩, masked_toUInt16]
      exact pass (sub_eq (by omega)) rfl
    rw [if_neg tx, dif_neg (by omega)]
    by_cases rx : addr.toNat < 0x8000
    · rw [if_pos rx, dif_pos ⟨by omega, rx⟩, masked_toUInt16]
      exact pass (sub_eq (by omega)) rfl
    · rw [if_neg rx, dif_neg (by omega)]
      rfl

theorem inside_ofTarget (t : Target) : (Place.ofTarget t).Inside := by
  cases t with
  | common i => exact i.isLt
  | register socket cell => exact ⟨socket.isLt, cell.isLt⟩
  | tx socket offset | rx socket offset =>
    have low : offset.toWord.toNat = offset.val :=
      UInt16.toNat_ofNat_of_lt' (Nat.lt_trans offset.isLt (by decide))
    exact ⟨socket.isLt, low ▸ offset.isLt⟩
  | unmapped => trivial

/-- No address is routed out of range. -/
theorem route_inside (addr : UInt32) : ∃ place, route addr = some place ∧ place.Inside :=
  ⟨_, route_eq addr, inside_ofTarget _⟩

/-! ## Bursts -/

/-- Address of a byte of a burst that goes around a ring. -/
def wrapped (base socket : Nat) (offset : UInt16) (i : Nat) : Option UInt32 := do
  let inside := (← add UInt32.size offset.toNat i) % ringSize
  return UInt32.ofNat (← add UInt32.size (← add UInt32.size base (← mul UInt32.size socket ringSize)) inside)

def burstAddr (start : UInt32) (i : Nat) : Option UInt32 := do
  match ← route start with
  | .tx socket offset => wrapped 0x4000 socket offset i
  | .rx socket offset => wrapped 0x6000 socket offset i
  | _ => return UInt32.ofNat (← add UInt32.size start.toNat i)

/-- Bases of the blocks that a control byte can select. -/
def regionBases : Vector Nat 32 :=
  #v[0x0000, 0x0400, 0x4000, 0x6000, 0x9000, 0x0500, 0x4800, 0x6800, 0x9000, 0x0600, 0x5000, 0x7000, 0x9000, 0x0700,
    0x5800, 0x7800, 0x9000, 0x9000, 0x9000, 0x9000, 0x9000, 0x9000, 0x9000, 0x9000, 0x9000, 0x9000, 0x9000, 0x9000,
    0x9000, 0x9000, 0x9000, 0x9000]

def blockAddr (block : UInt8) (addr : UInt16) : Option UInt32 := do
  let base ← regionBases[(block &&& 0x1F).toNat]?
  let offset := if block < 16 ∧ block &&& 2 ≠ 0 then masked addr else addr
  return UInt32.ofNat (← add UInt32.size base offset.toNat)

theorem wrapped_eq {base : Nat} (low : base ≤ 0x6000) (socket : Fin socketCount) (o : RingOffset) {i : Nat}
    (bound : i ≤ maxBurst) :
    wrapped base socket.val o.toWord i = some (UInt32.ofNat (base + socket.val * ringSize + (o.advance i).val)) := by
  have := socket.isLt
  have inside := o.isLt
  have offset : o.toWord.toNat = o.val := UInt16.toNat_ofNat_of_lt' (Nat.lt_trans inside (by decide))
  unfold wrapped
  rw [offset]
  refine pass (add_eq ?_) (pass (mul_eq ?_) (pass (add_eq ?_) (pass (add_eq ?_) rfl)))
  all_goals simp only [ringSize, socketCount, maxBurst, UInt32.size] at *
  all_goals omega

/-- No byte of a burst that a decoder can come up with is past the end of the address space. -/
theorem burstAddr_eq {start : UInt32} (low : start.toNat ≤ 0x18FFF) {i : Nat} (bound : i ≤ maxBurst) :
    burstAddr start i = some (EtherChip.burstAddr start i) := by
  refine pass (route_eq start) ?_
  unfold EtherChip.burstAddr
  cases EtherChip.route start with
  | common | register | unmapped =>
    refine pass (add_eq (by simp only [maxBurst, UInt32.size] at *; omega)) ?_
    rw [UInt32.ofNat_add, UInt32.ofNat_toNat]
    rfl
  | tx socket o => exact wrapped_eq (by decide) socket o bound
  | rx socket o => exact wrapped_eq (by decide) socket o bound

/-- The table of bases, and the bits that tell ring blocks from the others. -/
theorem regionBases_eq (block : UInt8) : regionBases[(block &&& 0x1F).toNat]? = some (blockBase block).toNat ∧
    (block < 16 ∧ block &&& 2 ≠ 0 ↔ isRingBlock block = true) := by
  have all : ∀ n : Fin 256, regionBases[(UInt8.ofNat n &&& 0x1F).toNat]? = some (blockBase (UInt8.ofNat n)).toNat ∧
      (UInt8.ofNat n < 16 ∧ UInt8.ofNat n &&& 2 ≠ 0 ↔ isRingBlock (UInt8.ofNat n) = true) := by decide +kernel
  have := all ⟨block.toNat, block.toNat_lt⟩
  rwa [UInt8.ofNat_toNat] at this

theorem blockAddr_eq (block : UInt8) (addr : UInt16) :
    blockAddr block addr = some (EtherChip.blockAddr block addr) := by
  obtain ⟨base, ring⟩ := regionBases_eq block
  have offset : (if isRingBlock block = true then masked addr else addr).toNat =
      if isRingBlock block = true then addr.toNat % ringSize else addr.toNat := by
    split
    · exact toNat_masked addr
    · rfl
  have := blockBase_le block
  have := (if isRingBlock block = true then masked addr else addr).toNat_lt
  refine pass base ?_
  simp only [ring]
  refine pass (add_eq (by simp only [UInt32.size]; omega)) ?_
  rw [UInt32.ofNat_add, UInt32.ofNat_toNat, offset]
  rfl

/-- Addresses that a decoder comes up with. -/
theorem blockAddr_le (block : UInt8) (addr : UInt16) : (EtherChip.blockAddr block addr).toNat ≤ 0x18FFF := by
  have := blockBase_le block
  have := addr.toNat_lt
  rw [toNat_blockAddr]
  split
  · simp only [ringSize]
    omega
  · omega

/-- No burst that a control byte can ask for leads past the end of the address space. -/
theorem burst_inside (block : UInt8) (addr : UInt16) :
    ∃ start, blockAddr block addr = some start ∧ ∀ i ≤ maxBurst, (burstAddr start i).isSome := by
  refine ⟨_, blockAddr_eq block addr, fun i bound => ?_⟩
  rw [burstAddr_eq (blockAddr_le block addr) bound]
  rfl

/-! ## Framing -/

def feedBurst : BurstState → UInt8 → Option (Option MemoryOp × BurstState)
  | .control addr, b => do
    let block := (b >>> 3) &&& 0x1F
    if asksWrite b then return (none, .writing block addr #[])
    else return (some (.read (← blockAddr block addr)), .reading block (addr + 1))
  | .reading block addr, _ => do return (some (.read (← blockAddr block addr)), .reading block (addr + 1))
  | s, b => some (s.feed b)

def feed : Decoder → UInt8 → Option (Option MemoryOp × Decoder)
  | .frame s, b => some (Decoder.feed (.frame s) b)
  | .burst s, b => do
    let (op, s) ← feedBurst s b
    return (op, .burst s)

def deselect : Decoder → Option (Option MemoryOp × Decoder)
  | .burst (.writing block addr kept) => do
    if kept.isEmpty then return (none, .burst .addrHigh)
    else return (some (.burst (← blockAddr block addr) kept.toList), .burst .addrHigh)
  | d => some d.deselect

theorem feedBurst_eq (s : BurstState) (b : UInt8) : feedBurst s b = some (s.feed b) := by
  cases s with
  | addrHigh | addrLow | writing => rfl
  | control addr =>
    have block : (b >>> 3) &&& 0x1F = selectedBlock b := by
      have := b.toNat_lt
      rw [← UInt8.toNat_inj, UInt8.toNat_and, UInt8.toNat_shiftRight, selectedBlock, UInt8.toNat_ofNat',
        Nat.shiftRight_eq_div_pow]
      exact (Nat.and_two_pow_sub_one_eq_mod (b.toNat / 8) 5).trans (by omega)
    unfold feedBurst BurstState.feed
    dsimp only
    rw [block]
    split
    · rfl
    · exact pass (blockAddr_eq ..) rfl
  | reading block addr => exact pass (blockAddr_eq ..) rfl

theorem feed_eq (d : Decoder) (b : UInt8) : feed d b = some (d.feed b) := by
  cases d with
  | frame s => rfl
  | burst s => exact pass (feedBurst_eq s b) rfl

theorem deselect_eq (d : Decoder) : deselect d = some d.deselect := by
  cases d with
  | frame s => rfl
  | burst s =>
    cases s with
    | addrHigh | addrLow | control | reading => rfl
    | writing block addr kept =>
      unfold deselect Decoder.deselect BurstState.finish
      dsimp only
      split
      · rfl
      · exact pass (blockAddr_eq ..) rfl

/-! ## What a decoder can come up with -/

/-- An operation that a decoder can come up with. -/
def Decodable : MemoryOp → Prop
  | .read _ | .write _ _ => True
  | .burst addr data => addr.toNat ≤ 0x18FFF ∧ data.length ≤ maxBurst

/-- Bytes that arrive never complete a burst. -/
theorem decodable_feed (d : Decoder) (b : UInt8) : ∀ op ∈ (d.feed b).1, Decodable op := by
  intro op asked
  cases d with
  | frame s =>
    cases s with
    | idle | addrHigh => cases asked
    | addrLow write high | data write addr =>
      cases write <;> cases asked
      all_goals trivial
  | burst s =>
    cases s with
    | addrHigh | addrLow | writing => cases asked
    | reading block addr => cases asked; trivial
    | control addr =>
      unfold Decoder.feed BurstState.feed at asked
      dsimp only at asked
      split at asked <;> cases asked
      trivial

theorem decodable_deselect {d : Decoder} (fits : d.kept.length ≤ maxBurst) : ∀ op ∈ d.deselect.1, Decodable op := by
  intro op asked
  cases d with
  | frame s => cases asked
  | burst s =>
    cases s with
    | addrHigh | addrLow | control | reading => cases asked
    | writing block addr kept =>
      unfold Decoder.deselect BurstState.finish at asked
      dsimp only at asked
      split at asked
      · cases asked
      · obtain rfl := Option.some.inj asked
        exact ⟨blockAddr_le block addr, fits⟩

/-- No more bytes are kept than a burst can have. -/
theorem length_kept_feed {d : Decoder} (fits : d.kept.length ≤ maxBurst) (b : UInt8) :
    (d.feed b).2.kept.length ≤ maxBurst := by
  cases d with
  | frame s => exact Nat.zero_le _
  | burst s =>
    cases s with
    | addrHigh | addrLow | reading => exact Nat.zero_le _
    | control addr =>
      unfold Decoder.feed BurstState.feed
      dsimp only
      split <;> exact Nat.zero_le _
    | writing block addr kept =>
      change (if kept.size < maxBurst then kept.push b else kept).toList.length ≤ maxBurst
      split
      · rename_i room
        rwa [Array.length_toList, Array.size_push]
      · exact fits

theorem kept_deselect (d : Decoder) : d.deselect.2.kept = [] := by
  cases d <;> rfl

end EtherChip.Checked

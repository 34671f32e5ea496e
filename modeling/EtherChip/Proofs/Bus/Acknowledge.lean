import EtherChip.Proofs.Bus.Transaction
import EtherChip.Proofs.Memory.Unread
import EtherChip.Proofs.Socket.Stage

/-!
# Acknowledging received bytes over the bus

The firmware acknowledges received bytes by moving the read position past them and giving RECV. The
sockets are polled at every step of these transactions. `Acknowledged` says what is expected of that:
the unread bytes are then those that were unread before without the acknowledged ones, and after them
what has been taken from the host meanwhile.

With one burst both bytes of the position are written at once, and that always holds. With two frames
every poll between them sees the new high byte beside the old low byte. If the low byte carries, that
position is past the new one, so the room that it shows includes up to 255 bytes which have not been
read, and a stream that keeps coming runs over them (`acknowledged_iff`).
-/
namespace EtherChip

variable {ν : Type} [NetHost ν]

/-- A register cell of a socket as the bus addresses it. -/
def busAddr (n : Fin socketCount) (cell : Nat) : UInt16 := (registerAddr n cell).toUInt16

/-- The firmware moves the read position of a socket and gives RECV. -/
def acknowledge (n : Fin socketCount) (position : RingOffset) : BusM ν Unit := do
  Master.writeWord (busAddr n Cell.rxRead) position.toWord
  Master.writeByte (busAddr n Cell.command) Command.receive.code

/-- The ticks of these transactions. -/
def acknowledgeOps (model : ChipModel) (n : Fin socketCount) (position : RingOffset) : List (Option MemoryOp) :=
  Master.writeOps model (busAddr n Cell.rxRead) [highByte position.toWord, lowByte position.toWord] ++
    Master.writeOps model (busAddr n Cell.command) [Command.receive.code]

theorem acknowledge_performs (model : ChipModel) (n : Fin socketCount) (position : RingOffset) :
    Master.Performs (ν := ν) (acknowledge n position) (Master.Waits model) (acknowledgeOps model n position)
      (Master.Waits model) :=
  (Master.write_performs model _ _).bind fun _ => Master.write_performs model _ _

/-! ## When the operations come -/

theorem toUInt32_busAddr (n : Fin socketCount) {cell : Nat} (lt : cell < 0x100) :
    (busAddr n cell).toUInt32 = registerAddr n cell := by
  have := n.isLt
  rw [← UInt32.toNat_inj, busAddr, UInt16.toNat_toUInt32, UInt32.toNat_toUInt16, registerAddr, UInt32.toNat_ofNat']
  simp only [socketCount] at *
  omega

theorem busAddr_succ (n : Fin socketCount) (cell : Nat) : busAddr n cell + 1 = busAddr n (cell + 1) := by
  simp only [busAddr, registerAddr, ← UInt16.toNat_inj, UInt16.toNat_add, UInt32.toNat_toUInt16,
    UInt32.toNat_ofNat']
  simp
  omega

/-- With frames the two bytes of the position come 65 steps apart. -/
theorem acknowledgeOps_w5100 (n : Fin socketCount) (position : RingOffset) :
    acknowledgeOps .w5100 n position =
      List.replicate 64 none ++
        ([some (.write (registerAddr n Cell.rxRead) (highByte position.toWord))] ++ (List.replicate 65 none ++
        ([some (.write (registerAddr n (Cell.rxRead + 1)) (lowByte position.toWord))] ++ (List.replicate 65 none ++
        ([some (.write (registerAddr n Cell.command) Command.receive.code)] ++ List.replicate 1 none))))) := by
  simp only [acknowledgeOps, Master.writeOps, Master.frameOps, Master.frame_ops, busAddr_succ]
  rw [toUInt32_busAddr n (by decide), toUInt32_busAddr n (by decide), toUInt32_busAddr n (by decide)]
  rfl

/-- With bursts both bytes of the position come at once. -/
theorem acknowledgeOps_w5500 (n : Fin socketCount) (position : RingOffset) :
    acknowledgeOps .w5500 n position =
      List.replicate 81 none ++
        ([some (.burst (registerAddr n Cell.rxRead) [highByte position.toWord, lowByte position.toWord])] ++
        (List.replicate 65 none ++
        [some (.burst (registerAddr n Cell.command) [Command.receive.code])])) := by
  unfold acknowledgeOps Master.writeOps
  dsimp only
  rw [Master.burst_ops _ (by simp) (by simp [maxBurst]), Master.burst_ops _ (by simp) (by simp [maxBurst]),
    toUInt32_busAddr n (by decide), toUInt32_busAddr n (by decide)]
  rfl

/-! ## Kept -/

open AddressSpace RingOffset Engine

variable {safe : Prop} {n : Fin socketCount} {new : RingOffset} {word : UInt16}

theorem arrives (word : UInt16) (new : RingOffset) :
    distance (ofWord new.toWord) new ≤ distance (ofWord word) new := by
  rw [ofWord_toWord, distance_self]
  exact Nat.zero_le _

/-- A burst never shows a read position past the new one. -/
theorem keeps_burst (lawful : ReadsAtMost ν) :
    Keeps ν safe n new word new.toWord (acknowledgeOps .w5500 n new) := by
  rw [acknowledgeOps_w5500]
  refine (Keeps.idle lawful 81).append ?_
  refine (Keeps.one lawful (Moves.burst n new) rfl fun _ => arrives word new).append ?_
  refine (Keeps.idle lawful 65).append ?_
  exact Keeps.one lawful (Moves.receive_burst n) rfl fun _ => Nat.le_refl _

/-- Frames do so only if the position between them is past it. -/
theorem keeps_frames (lawful : ReadsAtMost ν)
    (half : safe → distance (halfway (ofWord word) new) new ≤ distance (ofWord word) new) :
    Keeps ν safe n new word new.toWord (acknowledgeOps .w5100 n new) := by
  have whole : wordOf (highByte (halfWord word new)) (lowByte new.toWord) = new.toWord := by
    rw [halfWord, highByte_wordOf, wordOf_highByte_lowByte]
  rw [← ofWord_halfWord] at half
  rw [acknowledgeOps_w5100]
  refine (Keeps.idle lawful 64).append ?_
  refine (Keeps.one lawful (Moves.high n new) rfl half).append ?_
  refine (Keeps.idle lawful 65).append ?_
  refine (Keeps.one lawful (Moves.low n (lowByte new.toWord)) whole fun _ => arrives _ new).append ?_
  refine (Keeps.idle lawful 65).append ?_
  exact (Keeps.one lawful (Moves.receive n) rfl fun _ => Nat.le_refl _).append (Keeps.idle lawful 1)

/-! ## Overrun -/

/-- On a flooded host frames with a position between them that is past the new one take more than the
ring can hold. -/
theorem overrun_frames {m : AddressSpace} (h : (m.sockets.get n).OnStream) {k : Nat}
    (carries : Carries (m.sockets.get n).rxRead k) (few : k < 1792) (net : Flood) :
    ringSize - 1 + k < (m.sockets.get n).unread +
      (taken n m (acknowledgeOps .w5100 n ((m.sockets.get n).rxRead.advance k)) net).length := by
  -- The polls before the high byte fill the ring; the one after it finds the room that the position
  -- between the frames shows, which starts past the new one.
  have some : 64 ≠ 0 := by decide
  obtain ⟨⟨on, full, word⟩, first⟩ := idle_flood h net some
  rw [acknowledgeOps_w5100, taken_append, taken_append, List.length_append, List.length_append]
  generalize m.ticks (List.replicate 64 none) net = filled at on full word ⊢
  have read : (filled.1.sockets.get n).rxRead = (m.sockets.get n).rxRead := congrArg ofWord word
  have second := (tick_flood (Moves.high n ((m.sockets.get n).rxRead.advance k)) on filled.2).2
  have between : ofWord (halfWord ((m.sockets.get n).regs.word Cell.rxRead) ((m.sockets.get n).rxRead.advance k)) =
      (m.sockets.get n).rxRead.advance (256 * (k / 256 + 1)) :=
    (ofWord_halfWord _ _).trans (halfway_of_carries _ carries)
  have turn : 256 * (k / 256 + 1) ≤ ringSize - 1 := by
    simp only [ringSize]
    omega
  rw [Engine.unread, read] at full
  rw [word, between, distance_advance_left (by rw [full]; exact turn), full] at second
  rw [second]
  omega

/-! ## The exact condition -/

/-- What is expected of acknowledging `k` bytes: the new read position is in place, and the unread bytes
are those that were unread before without the first `k`, followed by what has been taken meanwhile. -/
def Acknowledged (c : Chip) (n : Fin socketCount) (k : Nat) (net : ν) : Prop :=
  let e := c.memory.sockets.get n
  let position := e.rxRead.advance k
  let e' := (acknowledge n position c net).1.2.memory.sockets.get n
  e'.rxRead = position ∧
    e'.unreadBytes = e.unreadBytes.drop k ++ taken n c.memory (acknowledgeOps c.model n position) net

/-- No poll sees a read position past the new one: both of its bytes come at once, or the low byte does
not carry, or so many bytes are acknowledged that the position between the two frames is the old one. -/
def NeverPast (model : ChipModel) (old : RingOffset) (k : Nat) : Prop :=
  model = .w5500 ∨ ¬ Carries old k ∨ 1792 ≤ k

section

variable {c : Chip} {n : Fin socketCount} {k : Nat}
  (established : (c.memory.sockets.get n).status = .established) (le : k ≤ (c.memory.sockets.get n).unread)

include established le

/-- What is unread before keeps its place over the run. -/
theorem kept_acknowledge (lawful : ReadsAtMost ν) (net : ν) :
    let e := c.memory.sockets.get n
    let position := e.rxRead.advance k
    let ops := acknowledgeOps c.model n position
    Kept (NeverPast c.model e.rxRead k) n position position.toWord
      (e.unreadBytes.drop k ++ taken n c.memory ops net) (c.memory.ticks ops net).1 := by
  intro e position ops
  have le : k ≤ e.unread := le
  have short : e.unread < ringSize := distance_lt _ _
  have len : (e.unreadBytes.drop k).length = e.unread - k := by rw [List.length_drop, length_unreadBytes]
  have ahead : distance (ofWord (e.regs.word Cell.rxRead)) position = k :=
    (distance_advance e.rxRead k).trans (Nat.mod_eq_of_lt (Nat.lt_of_le_of_lt le short))
  have before : Kept (NeverPast c.model e.rxRead k) n position (e.regs.word Cell.rxRead)
      (e.unreadBytes.drop k) c.memory := by
    refine ⟨.inl established, rfl, fun _ => (holds_unreadBytes e).drop (by rwa [length_unreadBytes]), fun _ => ?_⟩
    rw [ahead, len]
    omega
  refine (?_ : Keeps ν _ n position (e.regs.word Cell.rxRead) position.toWord ops) _ _ net before
  cases model : c.model with
  | w5100 =>
    have frames : ops = acknowledgeOps .w5100 n position := by rw [← model]
    rw [frames]
    refine keeps_frames lawful fun safe => ?_
    rw [ahead]
    exact distance_halfway_le e.rxRead (Nat.lt_of_le_of_lt le short) (safe.resolve_left nofun)
  | w5500 =>
    have burst : ops = acknowledgeOps .w5500 n position := by rw [← model]
    rw [burst]
    exact keeps_burst lawful

/-- In one run the unread bytes are kept exactly if there is room for what has been taken. -/
theorem acknowledged_run (idle : c.BusIdle) (lawful : ReadsAtMost ν) (net : ν) :
    let e := c.memory.sockets.get n
    Acknowledged c n k net ↔
      e.unread - k + (taken n c.memory (acknowledgeOps c.model n (e.rxRead.advance k)) net).length < ringSize := by
  intro e
  have kept := kept_acknowledge established le lawful net
  have run := (acknowledge_performs c.model n (e.rxRead.advance k) c net ⟨idle, rfl⟩).2
  have len (taken : Bytes) : (e.unreadBytes.drop k ++ taken).length = e.unread - k + taken.length := by
    rw [List.length_append, List.length_drop, length_unreadBytes]
  dsimp only at kept
  rw [← run] at kept
  unfold Acknowledged
  dsimp only at kept ⊢
  rw [← len]
  generalize (acknowledge n (e.rxRead.advance k) c net).1.2.memory = m' at kept ⊢
  generalize taken n c.memory (acknowledgeOps c.model n (e.rxRead.advance k)) net = took at kept ⊢
  refine ⟨fun ⟨_, unread⟩ => ?_, fun short => ?_⟩
  · rw [← unread, length_unreadBytes]
    exact distance_lt _ _
  · have read : (m'.sockets.get n).rxRead = e.rxRead.advance k :=
      (congrArg ofWord kept.shown).trans (ofWord_toWord _)
    have holds := kept.holds short
    rw [← read] at holds
    exact ⟨read, unreadBytes_of_holds holds⟩

end

/-- **Acknowledging received bytes, kept or not.** On a chip between transactions, for a socket on an
established stream and any number of bytes up to that of the unread ones: the two transactions are a
run of ticks, after which the chip is between transactions again; in each run the unread bytes are kept
exactly if what has been taken meanwhile fits beside them; and they are kept in every run, whatever the
host has to give and when, exactly if no poll sees a read position past the new one. -/
theorem acknowledged_iff (c : Chip) (n : Fin socketCount) (k : Nat) (idle : c.BusIdle)
    (reachable : Reachable (c.memory.sockets.get n)) (established : (c.memory.sockets.get n).status = .established)
    (le : k ≤ (c.memory.sockets.get n).unread) :
    let e := c.memory.sockets.get n
    let position := e.rxRead.advance k
    let ops := acknowledgeOps c.model n position
    (∀ (ν : Type) [NetHost ν] (net : ν),
      ((acknowledge n position c net).1.2.memory, (acknowledge n position c net).2) = c.memory.ticks ops net ∧
      (acknowledge n position c net).1.2.BusIdle) ∧
    (∀ (ν : Type) [NetHost ν], ReadsAtMost ν → ∀ net : ν,
      (Acknowledged c n k net ↔ e.unread - k + (taken n c.memory ops net).length < ringSize)) ∧
    ((∀ (ν : Type) [NetHost ν], ReadsAtMost ν → ∀ net : ν, Acknowledged c n k net) ↔
      c.model = .w5500 ∨ ¬ Carries e.rxRead k ∨ 1792 ≤ k) := by
  intro e position ops
  refine ⟨fun ν _ net => ?_, fun ν _ lawful net => acknowledged_run established le idle lawful net,
    fun always => ?_, fun safe ν _ lawful net => ?_⟩
  · obtain ⟨⟨between, model⟩, run⟩ := acknowledge_performs c.model n position c net ⟨idle, rfl⟩
    rw [← model] at between
    exact ⟨run, between⟩
  · -- Otherwise a flooded host is one that takes too much.
    refine Classical.byContradiction fun past => ?_
    obtain ⟨notBurst, carries, few⟩ : c.model ≠ .w5500 ∧ Carries e.rxRead k ∧ k < 1792 := by
      simpa only [not_or, Classical.not_not, Nat.not_le] using past
    have frames : c.model = .w5100 := by
      cases model : c.model with
      | w5100 => rfl
      | w5500 => exact absurd model notBurst
    have stream := reachable.staged.stream established
    have total := (acknowledged_run established le idle readsAtMost_flood .flood).mp
      (always Flood readsAtMost_flood .flood)
    have more := overrun_frames (m := c.memory) ⟨established, stream⟩ carries few .flood
    rw [frames] at total
    omega
  · have behind := (kept_acknowledge established le lawful net).behind safe
    refine (acknowledged_run established le idle lawful net).mpr ?_
    rw [List.length_append, List.length_drop, length_unreadBytes] at behind
    omega

/-- A connection on which a poll has filled the receive ring, and of which the firmware has read 255
bytes. -/
def floodedSocket : List (Event × Flood) :=
  [(.write {} Cell.mode Protocol.tcp.code, .flood), (.command {} Command.openSocket.code, .flood),
    (.command {} Command.connect.code, .flood), (.poll, .flood), (.poll, .flood),
    (.write {} (Cell.rxRead + 1) 0xFF, .flood)]

/-- A chip of which one socket is the flooded one. -/
def floodedChip (model : ChipModel) (n : Fin socketCount) : Chip :=
  let c := Chip.powerOn model {}
  { c with memory := c.memory.setSocket n (powerOn.trace floodedSocket) }

theorem acknowledged_one_more :
    (¬ ∀ (ν : Type) [NetHost ν], ReadsAtMost ν → ∀ net : ν, Acknowledged (floodedChip .w5100 2) 2 1 net) ∧
    ∀ (ν : Type) [NetHost ν], ReadsAtMost ν → ∀ net : ν, Acknowledged (floodedChip .w5500 2) 2 1 net := by
  have socket (model : ChipModel) : (floodedChip model 2).memory.sockets.get 2 = powerOn.trace floodedSocket :=
    socket_setSocket_self _ 2 _
  have idle (model : ChipModel) : (floodedChip model 2).BusIdle := ⟨rfl, rfl, rfl, rfl⟩
  have established (model : ChipModel) : ((floodedChip model 2).memory.sockets.get 2).status = .established := by
    rw [socket]
    decide +kernel
  have le (model : ChipModel) : 1 ≤ ((floodedChip model 2).memory.sockets.get 2).unread := by
    rw [socket]
    decide +kernel
  have read : (powerOn.trace floodedSocket).rxRead = 255 := by decide +kernel
  have iff (model : ChipModel) := (acknowledged_iff (floodedChip model 2) 2 1 (idle model)
    ⟨Flood, inferInstance, floodedSocket, socket model⟩ (established model) (le model)).2.2
  refine ⟨fun always => ?_, (iff .w5500).mpr (.inl rfl)⟩
  have never := (iff .w5100).mp always
  rw [socket, read] at never
  exact absurd never (by unfold Carries; decide)

end EtherChip

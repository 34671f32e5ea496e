import EtherChip.Proofs.Memory.Tick
import EtherChip.Proofs.Socket.Flood

/-!
# Unread bytes and ticks

A socket whose read position is moved over the bus meets a poll at every tick in between. `Moves` says
what an operation does to the word of the read position. Whatever the word is, what the socket takes comes after the bytes that its ring
holds, as long as they are fewer than its cells; and while the word names no position past them they
stay so (`Kept`). One tick keeps that, and so do runs of ticks (`Keeps`). On a flooded host some ticks
fill the ring up to the last byte (`idle_flood`).
-/
namespace EtherChip

variable {ν : Type} [NetHost ν]

/-! ## Operations on registers -/

namespace AddressSpace

theorem write_store (m : AddressSpace) (s : Fin socketCount) {cell : Nat} (value : UInt8) (lt : cell < 0x100)
    (plain : cell ≠ Cell.command) (net : ν) :
    m.write (registerAddr s cell) value net = (m.setSocket s ((m.sockets.get s).store cell value), net) := by
  rw [m.write_register (route_registerAddr s ⟨cell, lt⟩), Engine.writeRegister, if_neg plain]
  rfl

/-- A burst that starts in a register bank goes upward. -/
theorem burstAddr_register (s : Fin socketCount) {cell : Nat} (lt : cell < 0x100) (i : Nat) :
    burstAddr (registerAddr s cell) i = registerAddr s (cell + i) := by
  unfold burstAddr
  rw [route_registerAddr s ⟨cell, lt⟩]
  dsimp only
  rw [registerAddr, registerAddr, ← UInt32.ofNat_add, Nat.add_assoc]

theorem writeBurst_store (m : AddressSpace) (s : Fin socketCount) {cell : Nat} (high low : UInt8)
    (lt : cell + 1 < 0x100) (plain : cell ≠ Cell.command) (plain' : cell + 1 ≠ Cell.command) (net : ν) :
    m.writeBurst (registerAddr s cell) [high, low] net =
      let m := m.setSocket s ((m.sockets.get s).store cell high)
      (m.setSocket s ((m.sockets.get s).store (cell + 1) low), net) := by
  have first := m.write_store s high (Nat.lt_of_succ_lt lt) plain net
  have second := (m.setSocket s ((m.sockets.get s).store cell high)).write_store s low lt plain' net
  have run : m.writeBurst (registerAddr s cell) [high, low] net =
      (m.write (burstAddr (registerAddr s cell) 0) high >>= fun m =>
        m.write (burstAddr (registerAddr s cell) 1) low) net := rfl
  rw [run, burstAddr_register s (Nat.lt_of_succ_lt lt), burstAddr_register s (Nat.lt_of_succ_lt lt)]
  change (m.write (registerAddr s cell) high net).1.write (registerAddr s (cell + 1)) low
    (m.write (registerAddr s cell) high net).2 = _
  rw [first, second]

end AddressSpace

/-- An operation changes nothing of a socket but registers, and the word of its read position as the
function says. -/
def Moves (ν : Type) [NetHost ν] (n : Fin socketCount) (op : Option MemoryOp) (f : UInt16 → UInt16) : Prop :=
  ∀ (m : AddressSpace) (net : ν), ∃ regs,
    (Chip.executeSome m op net).1.2.sockets.get n = { m.sockets.get n with regs := regs } ∧
    regs.word Cell.rxRead = f ((m.sockets.get n).regs.word Cell.rxRead)

namespace Moves

open AddressSpace Engine

variable (n : Fin socketCount)

theorem none : Moves ν n none id := fun m _ => ⟨(m.sockets.get n).regs, rfl, rfl⟩

/-- The high byte of a new read position. -/
theorem high (new : RingOffset) :
    Moves ν n (some (.write (registerAddr n Cell.rxRead) (highByte new.toWord))) (halfWord · new) := by
  intro m net
  refine ⟨_, ?_, word_store_rxRead (m.sockets.get n) new⟩
  change (m.write (registerAddr n Cell.rxRead) (highByte new.toWord) net).1.sockets.get n = _
  rw [m.write_store n _ (by decide) (by decide), socket_setSocket_self, store_rxRead]

/-- The low byte of a new read position, when the high byte has been written. -/
theorem low (value : UInt8) :
    Moves ν n (some (.write (registerAddr n (Cell.rxRead + 1)) value)) fun word => wordOf (highByte word) value := by
  intro m net
  refine ⟨(m.sockets.get n).regs.set (Cell.rxRead + 1) value, ?_, ?_⟩
  · change (m.write (registerAddr n (Cell.rxRead + 1)) value net).1.sockets.get n = _
    rw [m.write_store n _ (by decide) (by decide), socket_setSocket_self, store_rxRead_low]
  · rw [RegisterBank.word_set_low _ _ (by decide), RegisterBank.word]
    dsimp only
    rw [highByte_wordOf]

/-- Both bytes at once. -/
theorem burst (new : RingOffset) :
    Moves ν n (some (.burst (registerAddr n Cell.rxRead) [highByte new.toWord, lowByte new.toWord]))
      fun _ => new.toWord := by
  intro m net
  let half := (m.sockets.get n).store Cell.rxRead (highByte new.toWord)
  have whole : (half.store (Cell.rxRead + 1) (lowByte new.toWord)).regs.word Cell.rxRead = new.toWord :=
    word_store_rxRead_low half (by rw [word_store_rxRead, halfWord, highByte_wordOf])
  refine ⟨_, ?_, whole⟩
  change (m.writeBurst (registerAddr n Cell.rxRead) [_, _] net).1.sockets.get n = _
  rw [m.writeBurst_store n _ _ (by decide) (by decide) (by decide)]
  dsimp only
  rw [socket_setSocket_self, socket_setSocket_self, store_rxRead_low, store_rxRead]

/-- RECV counts the unread bytes, if it does anything. -/
theorem receive_run (e : Engine) (cfg : NetConfig) (net : ν) : ∃ regs,
    (e.writeRegister cfg Cell.command Command.receive.code net).1 = { e with regs := regs } ∧
    regs.word Cell.rxRead = e.regs.word Cell.rxRead := by
  have run : (e.writeRegister cfg Cell.command Command.receive.code net).1 = e ∨
      (e.writeRegister cfg Cell.command Command.receive.code net).1 = e.showReceived := by
    rw [writeRegister, if_pos rfl, command, Command.ofCode?_code]
    cases e.status with
    | closed | init | listen => exact .inl rfl
    | established | udpReady => exact .inr rfl
  rcases run with same | counted
  · exact ⟨e.regs, same, rfl⟩
  · exact ⟨_, counted, congrArg Intake.read (intake_showReceived e)⟩

theorem receive : Moves ν n (some (.write (registerAddr n Cell.command) Command.receive.code)) id := by
  intro m net
  obtain ⟨regs, run, word⟩ := receive_run (m.sockets.get n) m.config net
  refine ⟨regs, ?_, word⟩
  change (m.write (registerAddr n Cell.command) Command.receive.code net).1.sockets.get n = _
  rw [m.write_register (route_registerAddr n ⟨Cell.command, by decide⟩)]
  dsimp only
  rw [socket_setSocket_self, run]

theorem receive_burst : Moves ν n (some (.burst (registerAddr n Cell.command) [Command.receive.code])) id := by
  intro m net
  have run : m.writeBurst (registerAddr n Cell.command) [Command.receive.code] net =
      m.write (burstAddr (registerAddr n Cell.command) 0) Command.receive.code net := rfl
  obtain ⟨regs, same, word⟩ := receive (ν := ν) n m net
  refine ⟨regs, ?_, word⟩
  change (m.writeBurst (registerAddr n Cell.command) [Command.receive.code] net).1.sockets.get n = _
  rw [run, burstAddr_register n (by decide)]
  exact same

end Moves

/-! ## One tick -/

namespace AddressSpace

/-- A tick carries the operation out and polls. -/
theorem socket_tick (m : AddressSpace) (n : Fin socketCount) (op : Option MemoryOp) (net : ν) :
    ∃ net' : ν, (m.tick op net).1.sockets.get n = (((Chip.executeSome m op net).1.2.sockets.get n).poll net').1 ∧
      taken n m [op] net = (((Chip.executeSome m op net).1.2.sockets.get n).polled? net').getD [] :=
  ⟨_, socket_forSockets _ (fun _ e => e.poll) n _, List.append_nil _⟩

theorem taken_cons (n : Fin socketCount) (m : AddressSpace) (op : Option MemoryOp) (ops : List (Option MemoryOp))
    (net : ν) :
    taken n m (op :: ops) net = taken n m [op] net ++ taken n (m.tick op net).1 ops (m.tick op net).2 :=
  taken_append n m [op] ops net

end AddressSpace

open AddressSpace

/-- A socket on a stream that shows a word as its read position. Its ring holds bytes from a position
on unless they have become too many for it; under the condition `safe` the read position is not past
them, and they cannot. -/
structure Kept (safe : Prop) (n : Fin socketCount) (start : RingOffset) (word : UInt16) (bytes : Bytes)
    (m : AddressSpace) : Prop where
  streams : (m.sockets.get n).Streams
  shown : (m.sockets.get n).regs.word Cell.rxRead = word
  holds : bytes.length < ringSize → (m.sockets.get n).intake.Holds start bytes
  behind : safe → RingOffset.distance (RingOffset.ofWord word) start + bytes.length < ringSize

variable {safe : Prop} {n : Fin socketCount} {start : RingOffset} {word : UInt16} {m : AddressSpace}

/-- **One tick keeps the bytes, with what has been taken after them.** -/
theorem Kept.tick (lawful : ReadsAtMost ν) {op : Option MemoryOp} {f : UInt16 → UInt16} (moves : Moves ν n op f)
    (closer : safe → RingOffset.distance (RingOffset.ofWord (f word)) start ≤
      RingOffset.distance (RingOffset.ofWord word) start)
    {bytes : Bytes} (h : Kept safe n start word bytes m) (net : ν) :
    Kept safe n start (f word) (bytes ++ taken n m [op] net) (m.tick op net).1 := by
  obtain ⟨regs, executed, moved⟩ := moves m net
  obtain ⟨net', ticked, took⟩ := m.socket_tick n op net
  generalize (Chip.executeSome m op net).1.2.sockets.get n = e at executed ticked took
  have shown : e.regs.word Cell.rxRead = f word := by rw [executed, moved, h.shown]
  have streams : e.Streams := by
    rw [executed]
    exact h.streams
  have holds (short : bytes.length < ringSize) : e.intake.Holds start bytes := by
    rw [executed]
    exact (h.holds short).of_words rfl rfl
  refine ⟨?_, ?_, fun short => ?_, fun ok => ?_⟩
  · rw [ticked]
    exact Engine.streams_poll streams net'
  · rw [ticked, Engine.rxRead_poll, shown]
  · rw [took, List.length_append] at short
    rw [ticked, took]
    exact Engine.holds_poll lawful streams (holds (by omega)) net' short
  · -- The room that the poll goes by is counted from the position as the operation leaves it.
    have position : e.rxRead = RingOffset.ofWord (f word) := congrArg RingOffset.ofWord shown
    have before := h.behind ok
    have after := closer ok
    rw [took, ← position]
    rw [← position] at after
    exact Engine.polled_fits lawful streams (holds (by omega)) (by omega) net'

/-! ## Runs of ticks -/

/-- A run of ticks takes the word of the read position from one value to another and keeps the bytes
from a position on. -/
def Keeps (ν : Type) [NetHost ν] (safe : Prop) (n : Fin socketCount) (start : RingOffset) (word word' : UInt16)
    (ops : List (Option MemoryOp)) : Prop :=
  ∀ (m : AddressSpace) (bytes : Bytes) (net : ν), Kept safe n start word bytes m →
    Kept safe n start word' (bytes ++ taken n m ops net) (m.ticks ops net).1

namespace Keeps

theorem append {word' word'' : UInt16} {ops later : List (Option MemoryOp)}
    (first : Keeps ν safe n start word word' ops) (rest : Keeps ν safe n start word' word'' later) :
    Keeps ν safe n start word word'' (ops ++ later) := by
  intro m bytes net h
  rw [ticks_append, taken_append, ← List.append_assoc]
  exact rest _ _ _ (first m bytes net h)

theorem one (lawful : ReadsAtMost ν) {op : Option MemoryOp} {f : UInt16 → UInt16} {word' : UInt16}
    (moves : Moves ν n op f) (moved : f word = word')
    (closer : safe → RingOffset.distance (RingOffset.ofWord word') start ≤
      RingOffset.distance (RingOffset.ofWord word) start) : Keeps ν safe n start word word' [op] := by
  subst moved
  exact fun _ _ net h => h.tick lawful moves closer net

/-- While nothing is carried out. -/
theorem idle (lawful : ReadsAtMost ν) (steps : Nat) :
    Keeps ν safe n start word word (List.replicate steps none) := by
  induction steps with
  | zero =>
    intro m bytes net h
    rw [List.replicate_zero, taken, List.append_nil]
    exact h
  | succ steps ih => exact (one lawful (Moves.none n) rfl fun _ => Nat.le_refl _).append ih

end Keeps

/-! ## On a flooded host -/

/-- A tick on a flooded host takes all that the read position lets in, once it has been moved. -/
theorem tick_flood {op : Option MemoryOp} {f : UInt16 → UInt16} (moves : Moves Flood n op f)
    (h : (m.sockets.get n).OnStream) (net : Flood) :
    let e := m.sockets.get n
    let e' := (m.tick op net).1.sockets.get n
    (e'.OnStream ∧ e'.unread = ringSize - 1 ∧ e'.regs.word Cell.rxRead = f (e.regs.word Cell.rxRead)) ∧
    (taken n m [op] net).length =
      ringSize - 1 - RingOffset.distance (RingOffset.ofWord (f (e.regs.word Cell.rxRead))) e.rxWrite := by
  intro e e'
  obtain ⟨regs, executed, moved⟩ := moves m net
  obtain ⟨net', ticked, took⟩ := m.socket_tick n op net
  generalize (Chip.executeSome m op net).1.2.sockets.get n = mid at executed ticked took
  have on : mid.OnStream := by
    rw [executed]
    exact h
  have shown : mid.regs.word Cell.rxRead = f (e.regs.word Cell.rxRead) := by rw [executed, moved]
  have write : mid.rxWrite = e.rxWrite := by rw [executed]
  have room : mid.rxRoom = ringSize - 1 - RingOffset.distance (RingOffset.ofWord (mid.regs.word Cell.rxRead))
      mid.rxWrite := rfl
  refine ⟨?_, ?_⟩
  · change ((m.tick op net).1.sockets.get n).OnStream ∧ ((m.tick op net).1.sockets.get n).unread = _ ∧
      ((m.tick op net).1.sockets.get n).regs.word Cell.rxRead = _
    rw [ticked]
    exact ⟨Engine.onStream_poll on net', Engine.unread_poll_flood on net', (Engine.rxRead_poll mid net').trans shown⟩
  · rw [took, Engine.length_polled_flood on, room, shown, write]

/-- After some ticks on a flooded host the ring is filled up. -/
theorem idle_flood (h : (m.sockets.get n).OnStream) (net : Flood) {steps : Nat} (some : steps ≠ 0) :
    let e := m.sockets.get n
    let ops := List.replicate steps none
    let e' := (m.ticks ops net).1.sockets.get n
    (e'.OnStream ∧ e'.unread = ringSize - 1 ∧ e'.regs.word Cell.rxRead = e.regs.word Cell.rxRead) ∧
    ringSize - 1 - e.unread ≤ (taken n m ops net).length := by
  obtain ⟨steps, rfl⟩ := Nat.exists_eq_succ_of_ne_zero some
  clear some
  induction steps generalizing m net with
  | zero =>
    obtain ⟨after, took⟩ := tick_flood (Moves.none n) h net
    exact ⟨after, Nat.le_of_eq took.symm⟩
  | succ steps ih =>
    obtain ⟨⟨on, -, word⟩, took⟩ := tick_flood (Moves.none n) h net
    obtain ⟨⟨on', full, word'⟩, -⟩ := ih on (m.tick none net).2
    refine ⟨⟨on', full, word'.trans word⟩, ?_⟩
    rw [List.replicate_succ, taken_cons, List.length_append]
    exact Nat.le_trans (Nat.le_of_eq took.symm) (Nat.le_add_right _ _)

end EtherChip

import EtherChip.Host.Socket
import EtherChip.Host.Network
import EtherChip.Proofs.Host.Outcome

/-!
# What waits at a host

An `Inlet` says what a host has to give on one socket: the elements that have arrived and have not been
taken, oldest first, and whether the other end has closed. What a host does for a reader is stated on it:
`StreamCalls` for the two calls that read a stream, `DatagramCalls` for the two that read datagrams. No
call gives an element twice, out of order or after another one; a call may always be refused. From that
follows what one look of a host socket at its stream or its datagrams takes
(`receiveStream_takes`, `receiveDatagram_collects`).
-/
namespace EtherChip

/-- What a host has to give to the reader of one socket. -/
structure Inlet (ν α : Type) where
  /-- What has arrived and has not been taken, oldest first. -/
  waiting : ν → List α
  /-- The other end has closed, so nothing more arrives. -/
  ended : ν → Prop
  /-- The host is in order: its calls do what is said of them. -/
  sound : ν → Prop

namespace Inlet

variable {ν α : Type}

/-- A change of the host that takes elements from the front and leaves the inlet alone otherwise. -/
structure Gives (inlet : Inlet ν α) (taken : List α) (net net' : ν) : Prop where
  waiting : inlet.waiting net = taken ++ inlet.waiting net'
  ended : inlet.ended net' ↔ inlet.ended net
  sound : inlet.sound net'

/-- A change of the host by its environment: elements arrive, or the other end closes. Nothing arrives
once it has closed. -/
structure Grows (inlet : Inlet ν α) (more : List α) (net net' : ν) : Prop where
  waiting : inlet.waiting net' = inlet.waiting net ++ more
  ended : inlet.ended net → more = [] ∧ inlet.ended net'
  sound : inlet.sound net'

instance [DecidableEq α] (inlet : Inlet ν α) [DecidablePred inlet.ended] [DecidablePred inlet.sound] (more : List α)
    (net net' : ν) : Decidable (inlet.Grows more net net') :=
  decidable_of_iff (inlet.waiting net' = inlet.waiting net ++ more ∧
      (inlet.ended net → more = [] ∧ inlet.ended net') ∧ inlet.sound net')
    ⟨fun ⟨waiting, ended, sound⟩ => ⟨waiting, ended, sound⟩, fun grows => ⟨grows.waiting, grows.ended, grows.sound⟩⟩

theorem Gives.trans {inlet : Inlet ν α} {taken later : List α} {net mid net' : ν} (first : inlet.Gives taken net mid)
    (rest : inlet.Gives later mid net') : inlet.Gives (taken ++ later) net net' where
  waiting := by rw [first.waiting, rest.waiting, List.append_assoc]
  ended := rest.ended.trans first.ended
  sound := rest.sound

end Inlet

variable {ν : Type} [NetHost ν]

/-! ## Streams -/

/-- The calls that read a stream. A look or a read gets nothing only if nothing was asked for, or if
everything has been taken and the other end has closed. -/
structure StreamCalls (inlet : Inlet ν UInt8) (id : SocketId) : Prop where
  peek : ∀ {net}, inlet.sound net → ∀ len, inlet.Gives [] net (NetHost.peek id len net).2 ∧
    ((NetHost.peek id len net).1 = .ok 0 → len = 0 ∨ inlet.waiting net = [] ∧ inlet.ended net)
  read : ∀ {net}, inlet.sound net → ∀ max bytes, (NetHost.read id max net).1 = .ok bytes →
    bytes.length ≤ max ∧ inlet.Gives bytes net (NetHost.read id max net).2 ∧
      (bytes = [] → max = 0 ∨ inlet.waiting net = [] ∧ inlet.ended net)
  refuse : ∀ {net}, inlet.sound net → ∀ max, Fails (NetHost.read id max) net →
    inlet.Gives [] net (NetHost.read id max net).2

/-- A call fails otherwise than for now. -/
def FailsForGood {α : Type} (call : StateM ν (Except Errno α)) (net : ν) : Prop :=
  ∃ why, (call net).1 = .error why ∧ why ≠ .eagain

instance {α : Type} (call : StateM ν (Except Errno α)) (net : ν) : Decidable (FailsForGood call net) :=
  match answer : (call net).1 with
  | .ok _ => .isFalse fun ⟨_, failed, _⟩ => nomatch answer.symm.trans failed
  | .error why =>
    if again : why = .eagain then
      .isFalse fun ⟨_, failed, final⟩ => final ((Except.error.inj (answer.symm.trans failed)).symm.trans again)
    else .isTrue ⟨why, answer, again⟩

/-- A look at a stream that asks for at most `max` bytes fails, otherwise than for now. -/
def StreamFails (id : SocketId) (max : Nat) (net : ν) : Prop :=
  FailsForGood (NetHost.peek id 1) net ∨
    Succeeds (NetHost.peek id 1) net ∧ max ≠ 0 ∧ FailsForGood (NetHost.read id max) (NetHost.peek id 1 net).2

instance (id : SocketId) (max : Nat) (net : ν) : Decidable (StreamFails id max net) :=
  inferInstanceAs (Decidable (_ ∨ _ ∧ _ ∧ _))

/-- The bytes that have been taken from a stream, if any. -/
def StreamEvent.bytes : StreamEvent → Bytes
  | .data bytes => bytes
  | _ => []

/-- What one look at a stream takes, and why it finds the stream closed. -/
structure StreamTakes (inlet : Inlet ν UInt8) (id : SocketId) (max : Nat) (net : ν) (found : StreamEvent × ν) :
    Prop where
  short : found.1.bytes.length ≤ max
  gives : inlet.Gives found.1.bytes net found.2
  closed : found.1 = .closed → StreamFails id max net ∨ inlet.waiting net = [] ∧ inlet.ended net

/-- A look that takes nothing and does not find the stream closed. -/
theorem StreamTakes.of_idle {inlet : Inlet ν UInt8} {id : SocketId} {max : Nat} {net net' : ν}
    (gives : inlet.Gives [] net net') : StreamTakes inlet id max net (.idle, net') :=
  ⟨Nat.zero_le _, gives, nofun⟩

theorem StreamTakes.of_closed {inlet : Inlet ν UInt8} {id : SocketId} {max : Nat} {net net' : ν}
    (gives : inlet.Gives [] net net') (why : StreamFails id max net ∨ inlet.waiting net = [] ∧ inlet.ended net) :
    StreamTakes inlet id max net (.closed, net') :=
  ⟨Nat.zero_le _, gives, fun _ => why⟩

/-- **One look at a stream** takes a part of what waits, from the front, and finds the stream closed
only if a call fails for good or if the other end has closed and everything has been taken. -/
theorem receiveStream_takes {inlet : Inlet ν UInt8} {id : SocketId} (calls : StreamCalls inlet id) {net : ν}
    (sound : inlet.sound net) (max : Nat) :
    StreamTakes inlet id max net ((HostSocket.stream id).receiveStream max net) := by
  obtain ⟨looked, nothing⟩ := calls.peek sound 1
  unfold HostSocket.receiveStream
  dsimp only
  rw [bind_run]
  rcases peeked : (NetHost.peek id 1 net).1 with why | _ | n
  · dsimp only
    split
    · exact .of_idle looked
    · exact .of_closed looked (.inl (.inl ⟨why, peeked, ‹_›⟩))
  · exact .of_closed looked (.inr ((nothing peeked).resolve_left Nat.one_ne_zero))
  · dsimp only
    split
    · exact .of_idle looked
    rename_i room
    rw [bind_run]
    rcases answer : (NetHost.read id max (NetHost.peek id 1 net).2).1 with why | _ | ⟨b, rest⟩
    · have refused := looked.trans (calls.refuse looked.sound max ⟨why, answer⟩)
      dsimp only
      split
      · exact .of_idle refused
      · exact .of_closed refused (.inl (.inr ⟨⟨_, peeked⟩, room, why, answer, ‹_›⟩))
    · obtain ⟨-, gives, nothing⟩ := calls.read looked.sound max [] answer
      obtain ⟨drained, ended⟩ := (nothing rfl).resolve_left room
      refine .of_closed (looked.trans gives) (.inr ⟨?_, looked.ended.mp ended⟩)
      rw [looked.waiting, drained, List.append_nil]
    · obtain ⟨short, gives, -⟩ := calls.read looked.sound max (b :: rest) answer
      exact ⟨short, looked.trans gives, nofun⟩

/-! ## Datagrams -/

/-- The calls that read datagrams: a look tells the length of the oldest one and leaves it, and a read
takes it, both cut to the length that is asked for. -/
structure DatagramCalls (inlet : Inlet ν Datagram) (id : SocketId) : Prop where
  peekFrom : ∀ {net}, inlet.sound net → ∀ len, inlet.Gives [] net (NetHost.peekFrom id len net).2 ∧
    ∀ n, (NetHost.peekFrom id len net).1 = .ok n →
      ∃ d rest, inlet.waiting net = d :: rest ∧ n = min len d.payload.length
  receiveFrom : ∀ {net}, inlet.sound net → ∀ max bytes source,
    (NetHost.receiveFrom id max net).1 = .ok (bytes, source) →
    ∃ d, inlet.Gives [d] net (NetHost.receiveFrom id max net).2 ∧ bytes = d.payload.take max ∧ source = d.source
  refuse : ∀ {net}, inlet.sound net → ∀ max, Fails (NetHost.receiveFrom id max) net →
    inlet.Gives [] net (NetHost.receiveFrom id max net).2

namespace Datagram

/-- A datagram that fits in no receive ring. -/
def Oversized (d : Datagram) : Prop := maxDatagram < d.payload.length

/-- A datagram that does not have to wait for room. -/
def Goes (d : Datagram) (free : Nat) : Prop := d.Oversized ∨ d.payload.length + receiveHeaderSize ≤ free

instance : DecidablePred Oversized := fun d => inferInstanceAs (Decidable (_ < d.payload.length))

instance (d : Datagram) (free : Nat) : Decidable (d.Goes free) := inferInstanceAs (Decidable (_ ∨ _))

end Datagram

/-- The host refuses to show or to hand over a datagram. -/
def DatagramRefused (id : SocketId) (net : ν) : Prop :=
  Fails (NetHost.peekFrom id (maxDatagram + 1)) net ∨
    Fails (NetHost.receiveFrom id (maxDatagram + 1)) (NetHost.peekFrom id (maxDatagram + 1) net).2

instance (id : SocketId) (net : ν) : Decidable (DatagramRefused id net) := inferInstanceAs (Decidable (_ ∨ _))

/-- What one look at the datagrams of a socket comes to. -/
inductive DatagramCollects (inlet : Inlet ν Datagram) (id : SocketId) (free : Nat) (net : ν) :
    Except HostError DatagramEvent × ν → Prop
  /-- Nothing is taken: none waits, or the oldest one has to wait, or the host refuses. -/
  | nothing (answer : Except HostError DatagramEvent) (net' : ν) :
      (∀ len, answer ≠ .ok (.dropped len)) → (∀ source bytes, answer ≠ .ok (.received source bytes)) →
      inlet.Gives [] net net' → (∀ d ∈ (inlet.waiting net).head?, d.Goes free → DatagramRefused id net) →
      DatagramCollects inlet id free net (answer, net')
  /-- The oldest one is thrown away. -/
  | dropped (d : Datagram) (net' : ν) : d.Oversized → ¬ DatagramRefused id net → inlet.Gives [d] net net' →
      DatagramCollects inlet id free net (.ok (.dropped (maxDatagram + 1)), net')
  /-- The oldest one is received. -/
  | received (d : Datagram) (net' : ν) : ¬ d.Oversized → d.Goes free → ¬ DatagramRefused id net →
      inlet.Gives [d] net net' → DatagramCollects inlet id free net (.ok (.received d.source d.payload), net')

/-- After a look that shows one, a read is refused, or takes the oldest datagram. -/
theorem DatagramCalls.read_oldest {inlet : Inlet ν Datagram} {id : SocketId} (calls : DatagramCalls inlet id) {net : ν}
    (sound : inlet.sound net) (shown : Succeeds (NetHost.peekFrom id (maxDatagram + 1)) net) {d : Datagram}
    {rest : List Datagram} (waiting : inlet.waiting net = d :: rest) :
    let read := NetHost.receiveFrom id (maxDatagram + 1) (NetHost.peekFrom id (maxDatagram + 1) net).2
    (∃ why, read.1 = .error why ∧ DatagramRefused id net ∧ inlet.Gives [] net read.2) ∨
    read.1 = .ok (d.payload.take (maxDatagram + 1), d.source) ∧ ¬ DatagramRefused id net ∧
      inlet.Gives [d] net read.2 := by
  intro read
  have looked := (calls.peekFrom sound (maxDatagram + 1)).1
  rcases answer : read.1 with why | ⟨bytes, source⟩
  · exact .inl ⟨why, rfl, .inr ⟨why, answer⟩, looked.trans (calls.refuse looked.sound _ ⟨why, answer⟩)⟩
  · obtain ⟨other, gives, rfl, rfl⟩ := calls.receiveFrom looked.sound _ bytes source answer
    obtain rfl : other = d := (List.cons.inj (gives.waiting.symm.trans (looked.waiting.symm.trans waiting))).1
    refine .inr ⟨rfl, ?_, looked.trans gives⟩
    rintro (failed | failed)
    · exact not_succeeds.mpr failed shown
    · exact not_succeeds.mpr failed ⟨_, answer⟩

/-- **One look at the datagrams of a socket** takes the oldest one and no other: it is thrown away if it
fits in no ring, received whole if it fits now, and left where it is otherwise. -/
theorem receiveDatagram_collects {inlet : Inlet ν Datagram} {id : SocketId} (calls : DatagramCalls inlet id) {net : ν}
    (sound : inlet.sound net) (free : Nat) :
    DatagramCollects inlet id free net ((HostSocket.datagram id).receiveDatagram free net) := by
  obtain ⟨looked, shown⟩ := calls.peekFrom sound (maxDatagram + 1)
  unfold HostSocket.receiveDatagram
  dsimp only
  rw [bind_run]
  rcases peeked : (NetHost.peekFrom id (maxDatagram + 1) net).1 with why | n
  · have refused : DatagramRefused id net := .inl ⟨why, peeked⟩
    dsimp only
    split <;> exact .nothing _ _ nofun nofun looked fun _ _ _ => refused
  obtain ⟨d, rest, waiting, len⟩ := shown n peeked
  have read := calls.read_oldest sound ⟨n, peeked⟩ waiting
  dsimp only at read ⊢
  by_cases oversized : maxDatagram < n
  · rw [if_pos oversized, bind_run]
    rcases read with ⟨why, answer, refused, gives⟩ | ⟨answer, willing, gives⟩ <;> rw [answer]
    · exact .nothing _ _ nofun nofun gives fun _ _ _ => refused
    · obtain rfl : n = maxDatagram + 1 := by omega
      exact .dropped d _ (by rw [Datagram.Oversized]; omega) willing gives
  rw [if_neg oversized]
  by_cases waits : free < n + receiveHeaderSize
  · rw [if_pos waits]
    refine .nothing _ _ nofun nofun looked fun oldest mem goes => ?_
    obtain rfl : d = oldest := by simpa [waiting] using mem
    rw [Datagram.Goes, Datagram.Oversized] at goes
    omega
  · rw [if_neg waits, bind_run]
    rcases read with ⟨why, answer, refused, gives⟩ | ⟨answer, willing, gives⟩ <;> rw [answer]
    · exact .nothing _ _ nofun nofun gives fun _ _ _ => refused
    · rw [List.take_of_length_le (by omega)]
      exact .received d _ (by rw [Datagram.Oversized]; omega) (.inr (by omega)) willing gives

end EtherChip

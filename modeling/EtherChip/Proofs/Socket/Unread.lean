import EtherChip.Proofs.Socket.Pointers
import EtherChip.Proofs.Socket.RingCopy

/-!
# Unread bytes

The receive ring holds bytes from a position on, up to the write position (`Intake.Holds`); the
unread bytes are those from the read position on. What is appended comes after them as long as there
are fewer of them than the ring has cells, and a socket takes no more from a stream than leaves them
so, counted from the read position that its registers show at that moment (`length_polled`). While
the two bytes of that position are being written it is neither the old nor the new one
(`halfway`): it lies between them unless the low byte carries.
-/
namespace EtherChip

/-- The ring holds bytes from a position on, up to the write position. -/
structure Intake.Holds (i : Intake) (start : RingOffset) (bytes : Bytes) : Prop where
  short : bytes.length < ringSize
  stop : i.write = start.advance bytes.length
  stored : i.ring.copyOut start bytes.length = bytes

namespace Intake.Holds

open RingOffset

variable {i : Intake} {start : RingOffset} {bytes : Bytes}

theorem distance_write (h : i.Holds start bytes) : distance start i.write = bytes.length := by
  rw [h.stop, distance_advance, Nat.mod_eq_of_lt h.short]

/-- Words of the registers do not matter. -/
theorem of_words {i' : Intake} (h : i.Holds start bytes) (ring : i'.ring = i.ring) (write : i'.write = i.write) :
    i'.Holds start bytes :=
  ⟨h.short, write.trans h.stop, ring ▸ h.stored⟩

/-- The bytes that are left when the first ones have been passed. -/
theorem drop (h : i.Holds start bytes) {k : Nat} (le : k ≤ bytes.length) :
    i.Holds (start.advance k) (bytes.drop k) := by
  have short := h.short
  refine ⟨?_, ?_, ?_⟩ <;> rw [List.length_drop]
  · omega
  · rw [h.stop, advance_advance, Nat.add_sub_cancel' le]
  · rw [← Ring.drop_copyOut i.ring start le (Nat.le_of_lt short), h.stored]

/-- **What is appended comes after the bytes that the ring holds.** -/
theorem append (h : i.Holds start bytes) {data : Bytes} (fits : bytes.length + data.length < ringSize) :
    (i.append data).Holds start (bytes ++ data) := by
  have small : data.length ≤ ringSize := by omega
  refine ⟨by rwa [List.length_append], ?_, ?_⟩ <;> rw [List.length_append]
  · rw [← advance_advance, ← h.stop]
    exact Ring.copyIn_snd i.ring i.write small
  · have written := Ring.written_copyIn i.ring i.write small
    have room : distance start i.write + data.length ≤ ringSize := by
      rw [h.distance_write]
      omega
    have whole := written.copyOut_append room
    rw [h.distance_write, h.stored] at whole
    exact whole

end Intake.Holds

namespace Engine

open RingOffset

/-- The bytes that the firmware has not read, oldest first. -/
def unreadBytes (e : Engine) : Bytes := e.rx.copyOut e.rxRead e.unread

theorem length_unreadBytes (e : Engine) : e.unreadBytes.length = e.unread := by
  rw [unreadBytes, Ring.length_copyOut]
  exact Nat.min_eq_left (Nat.le_of_lt (distance_lt _ _))

theorem holds_unreadBytes (e : Engine) : e.intake.Holds e.rxRead e.unreadBytes := by
  refine ⟨?_, ?_, ?_⟩ <;> rw [length_unreadBytes]
  · exact distance_lt _ _
  · exact (advance_distance _ _).symm
  · rfl

/-- Bytes that the ring holds from the read position on are the unread ones. -/
theorem unreadBytes_of_holds {e : Engine} {bytes : Bytes} (h : e.intake.Holds e.rxRead bytes) :
    e.unreadBytes = bytes := by
  have unread : e.unread = bytes.length := h.distance_write
  rw [unreadBytes, unread]
  exact h.stored

/-! ## What a stream gives -/

end Engine

/-- A host gives no more bytes of a stream than it is asked for. -/
def ReadsAtMost (ν : Type) [NetHost ν] : Prop :=
  ∀ id max, Always (NetHost.read id max : StateM ν _) fun r => ∀ bytes, r = .ok bytes → bytes.length ≤ max

variable {ν : Type} [NetHost ν]

theorem HostSocket.length_receiveStream (lawful : ReadsAtMost ν) (s : HostSocket) (max : Nat) :
    Always (s.receiveStream max : StateM ν _) fun event => ∀ bytes, event = .data bytes → bytes.length ≤ max := by
  unfold receiveStream
  split
  · rename_i id
    refine .bind (.any _) fun waiting _ => ?_
    split
    · exact .pure nofun
    · refine .pure fun bytes data => ?_
      split at data <;> exact nomatch data
    split
    · exact .pure nofun
    refine .bind (lawful id max) fun read bound => ?_
    split
    · exact .pure nofun
    · rename_i bytes _
      refine .pure fun taken data => ?_
      obtain rfl := StreamEvent.data.inj data
      exact bound bytes rfl
    · refine .pure fun bytes data => ?_
      split at data <;> exact nomatch data
  · exact .pure nofun

namespace Engine

open RingOffset

/-- A socket on a stream, also when it has been lost. -/
def Streams (e : Engine) : Prop := e.status = .established ∨ e.status = .closed

theorem Quiet.streams {e e' : Engine} (change : Quiet e e') (h : e.Streams) : e'.Streams := by
  cases change with
  | storedTx | captured => exact h
  | advanced position status => exact .inl ((status_showSent e position).trans status)
  | flushed position status => exact .inl ((status_completeSend _ position).trans status)
  | released => exact .inr rfl
  | connecting _ _ status | listening _ status | renewed _ status | connected _ status
  | accepted _ _ status | dispatched _ status =>
    rcases h with h | h <;> exact nomatch h.symm.trans status

theorem Quiets.streams {e e' : Engine} (chain : Quiets e e') (h : e.Streams) : e'.Streams := by
  induction chain with
  | refl => exact h
  | tail _ change ih => exact change.streams ih

theorem streams_poll {e : Engine} (h : e.Streams) (net : ν) : (e.poll net).1.Streams := by
  have absorbs := poll_absorbs e net
  cases arrived : e.polled? net with
  | none =>
    rw [arrived] at absorbs
    exact Quiets.streams absorbs h
  | some data =>
    rw [arrived] at absorbs
    obtain ⟨mid, before, after⟩ := absorbs
    refine after.streams ?_
    rw [Streams, status_deliver]
    exact before.streams h

/-- What a poll takes from a stream fits in the room that the registers show. -/
theorem length_polled (lawful : ReadsAtMost ν) {e : Engine} (h : e.Streams) (net : ν) :
    ((e.polled? net).getD []).length ≤ e.rxRoom := by
  rcases h with status | status
  · have bound := HostSocket.length_receiveStream lawful (e.flushStream net).1.host e.rxRoom (e.flushStream net).2
    rw [polled?_established status]
    generalize ((e.flushStream net).1.host.receiveStream e.rxRoom (e.flushStream net).2).1 = found at bound ⊢
    cases found with
    | data bytes => exact bound bytes rfl
    | idle | closed => exact Nat.zero_le _
  · unfold polled?
    rw [status]
    exact Nat.zero_le _

/-- **What a poll takes from a stream comes after the bytes that the ring holds.** -/
theorem holds_poll (lawful : ReadsAtMost ν) {e : Engine} (h : e.Streams) {start : RingOffset} {bytes : Bytes}
    (holds : e.intake.Holds start bytes) (net : ν)
    (fits : bytes.length + ((e.polled? net).getD []).length < ringSize) :
    (e.poll net).1.intake.Holds start (bytes ++ (e.polled? net).getD []) := by
  have room := length_polled lawful h net
  rw [intake_poll]
  cases arrived : e.polled? net with
  | none =>
    rw [Option.getD_none, List.append_nil]
    exact holds
  | some data =>
    rw [arrived, Option.getD_some] at fits room
    rw [Intake.absorb, Intake.deliver_of_fits (room_intake e ▸ room)]
    exact holds.append fits

/-- A poll leaves the read position alone. -/
theorem rxRead_poll (e : Engine) (net : ν) : (e.poll net).1.regs.word Cell.rxRead = e.regs.word Cell.rxRead := by
  have read : (e.poll net).1.intake.read = (e.intake.absorb (e.polled? net)).read :=
    congrArg Intake.read (intake_poll e net)
  refine read.trans ?_
  cases e.polled? net with
  | none => rfl
  | some data =>
    rw [Intake.absorb, Intake.deliver]
    split <;> rfl

/-- A read position that is not past the bytes that the ring holds keeps them from being run over. -/
theorem polled_fits (lawful : ReadsAtMost ν) {e : Engine} (h : e.Streams) {start : RingOffset} {bytes : Bytes}
    (holds : e.intake.Holds start bytes) (behind : distance e.rxRead start + bytes.length < ringSize) (net : ν) :
    distance e.rxRead start + (bytes ++ (e.polled? net).getD []).length < ringSize := by
  have unread : e.unread = distance e.rxRead start + bytes.length := by
    have stop : e.rxWrite = start.advance bytes.length := holds.stop
    rw [unread, stop, distance_advance_right, Nat.mod_eq_of_lt behind]
  have room := length_polled lawful h net
  rw [rxRoom, unread] at room
  rw [List.length_append]
  omega

/-! ## A read position that is written byte by byte -/

/-- The read position that the registers show between the two bytes of a new one. -/
def halfway (old new : RingOffset) : RingOffset := RingOffset.ofNat (new.val / 256 * 256 + old.val % 256)

/-- Adding a number of bytes to a read position carries from its low byte into its high byte. -/
def Carries (position : RingOffset) (k : Nat) : Prop := 256 ≤ position.val % 256 + k % 256

/-- Without a carry the position between the two bytes lies on the way; when the high byte comes round
to the old one it has not moved yet. -/
theorem distance_halfway_le (old : RingOffset) {k : Nat} (short : k < ringSize)
    (safe : ¬ Carries old k ∨ 1792 ≤ k) : distance (halfway old (old.advance k)) (old.advance k) ≤ k := by
  have := old.isLt
  simp only [Carries, halfway, distance, val_ofNat, val_advance, ringSize] at *
  omega

/-- With a carry the position between the two bytes is past the new one, but for the largest numbers
of bytes, with which it is still the old one. -/
theorem halfway_of_carries (old : RingOffset) {k : Nat} (carries : Carries old k) :
    halfway old (old.advance k) = old.advance (256 * (k / 256 + 1)) := by
  have := old.isLt
  apply Fin.ext
  simp only [Carries, halfway, val_ofNat, val_advance, ringSize] at *
  omega

theorem store_rxRead (e : Engine) (value : UInt8) :
    e.store Cell.rxRead value = { e with regs := e.regs.set Cell.rxRead (pointerHigh value) } := by
  rw [store, if_neg (by decide), if_neg (by decide), if_neg (by decide), if_neg (by decide), if_pos rfl]

theorem store_rxRead_low (e : Engine) (value : UInt8) :
    e.store (Cell.rxRead + 1) value = { e with regs := e.regs.set (Cell.rxRead + 1) value } := by
  rw [store, if_neg (by decide), if_neg (by decide), if_neg (by decide), if_neg (by decide), if_neg (by decide)]

/-- The word of a read position after the high byte of a new one. -/
def halfWord (word : UInt16) (new : RingOffset) : UInt16 := wordOf (highByte new.toWord) (lowByte word)

theorem ofWord_halfWord (word : UInt16) (new : RingOffset) : ofWord (halfWord word new) = halfway (ofWord word) new := by
  have := new.isLt
  apply Fin.ext
  simp only [ofWord, halfWord, halfway, toNat_wordOf, highByte, lowByte, UInt8.toNat_ofNat', toNat_toWord,
    val_ofNat, ringSize] at *
  omega

theorem word_store_rxRead (e : Engine) (new : RingOffset) :
    (e.store Cell.rxRead (highByte new.toWord)).regs.word Cell.rxRead = halfWord (e.regs.word Cell.rxRead) new := by
  rw [store_rxRead, RegisterBank.pointerHigh_highByte_toWord]
  dsimp only
  rw [RegisterBank.word_set_high _ _ (by decide), halfWord, RegisterBank.word, lowByte_wordOf]

theorem word_store_rxRead_low (e : Engine) {new : RingOffset}
    (high : highByte (e.regs.word Cell.rxRead) = highByte new.toWord) :
    (e.store (Cell.rxRead + 1) (lowByte new.toWord)).regs.word Cell.rxRead = new.toWord := by
  rw [RegisterBank.word, highByte_wordOf] at high
  rw [store_rxRead_low]
  dsimp only
  rw [RegisterBank.word_set_low _ _ (by decide), high, wordOf_highByte_lowByte]

end Engine

end EtherChip

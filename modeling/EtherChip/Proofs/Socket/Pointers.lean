import EtherChip.Host.Network
import EtherChip.Proofs.Socket.Receive

/-!
# Ring pointers over whole histories

The pointers that the firmware sees lie in the rings, the free size and the bytes waiting in the
transmit ring add up to its capacity (`Tidy`), and the received size is the distance from the read
position at which it was last counted (`countedFrom`). A loaded state is arbitrary, but it leaves the
socket closed, and a closed socket only opens with all pointers at zero. So both hold of every socket
that is not closed, and of closed ones too in a history without loading (`ring_pointers`).
-/
namespace EtherChip

namespace RegisterBank

/-- The pointers that the firmware sees lie in the rings. -/
structure InRings (r : RegisterBank) : Prop where
  txRead : (r.word Cell.txRead).toNat < ringSize
  txWrite : (r.word Cell.txWrite).toNat < ringSize
  rxRead : (r.word Cell.rxRead).toNat < ringSize

/-- The pointers lie in the rings, and the free size is what they leave. -/
structure Tidy (r : RegisterBank) : Prop extends InRings r where
  free : r.word Cell.txFree =
    UInt16.ofNat (ringSize - RingOffset.distance (r.pointer Cell.txRead) (r.pointer Cell.txWrite))

/-- The cells of the three pointers and of the free size. -/
def pointerCell (cell : Nat) : Bool :=
  (Cell.txFree ≤ cell && cell < Cell.rxReceived) || cell == Cell.rxRead || cell == Cell.rxRead + 1

theorem InRings.of_words {r r' : RegisterBank} (h : InRings r)
    (txRead : r'.word Cell.txRead = r.word Cell.txRead)
    (txWrite : r'.word Cell.txWrite = r.word Cell.txWrite)
    (rxRead : r'.word Cell.rxRead = r.word Cell.rxRead) : InRings r' := by
  obtain ⟨h₁, h₂, h₃⟩ := h
  rw [← txRead] at h₁
  rw [← txWrite] at h₂
  rw [← rxRead] at h₃
  exact ⟨h₁, h₂, h₃⟩

/-- Cells other than those of the pointers and of the free size are free. -/
theorem Tidy.of_cells {r r' : RegisterBank} (h : Tidy r)
    (same : ∀ cell, pointerCell cell → r'.get cell = r.get cell) : Tidy r' := by
  have word {cell : Nat} (first : pointerCell cell) (second : pointerCell (cell + 1)) :
      r'.word cell = r.word cell := by
    rw [RegisterBank.word, same _ first, same _ second, RegisterBank.word]
  have txRead : r'.word Cell.txRead = r.word Cell.txRead := word (by decide) (by decide)
  have txWrite : r'.word Cell.txWrite = r.word Cell.txWrite := word (by decide) (by decide)
  refine ⟨h.toInRings.of_words txRead txWrite (word (by decide) (by decide)), ?_⟩
  rw [pointer, pointer, txRead, txWrite, word (by decide) (by decide), h.free, pointer, pointer]

theorem Tidy.set {r : RegisterBank} (h : Tidy r) {cell : Nat} (value : UInt8)
    (free : pointerCell cell = false) : Tidy (r.set cell value) := by
  refine h.of_cells fun other pointer => get_set_of_ne r value ?_
  rintro rfl
  exact absurd pointer (free ▸ Bool.false_ne_true)

theorem Tidy.setWord {r : RegisterBank} (h : Tidy r) {cell : Nat} (value : UInt16)
    (first : pointerCell cell = false) (second : pointerCell (cell + 1) = false) :
    Tidy (r.setWord cell value) :=
  (h.set _ first).set _ second

theorem Tidy.showPeer {r : RegisterBank} (h : Tidy r) (peer : Endpoint) : Tidy (r.showPeer peer) :=
  Tidy.setWord
    ((((h.set _ (by decide)).set _ (by decide)).set _ (by decide)).set _ (by decide)) _
    (by decide) (by decide)

/-! ## Writing one byte of a pointer -/

theorem toNat_pointerHigh_lt (value : UInt8) : (Engine.pointerHigh value).toNat < 8 := by
  rw [Engine.pointerHigh, UInt8.toNat_and]
  exact Nat.lt_succ_of_le Nat.and_le_right

/-- The high byte of a position has no more than three bits. -/
theorem pointerHigh_highByte_toWord (o : RingOffset) : Engine.pointerHigh (highByte o.toWord) = highByte o.toWord := by
  have := o.isLt
  have mask : (7 : UInt8).toNat = 2 ^ 3 - 1 := rfl
  rw [← UInt8.toNat_inj, Engine.pointerHigh, UInt8.toNat_and, mask, Nat.and_two_pow_sub_one_eq_mod, highByte,
    UInt8.toNat_ofNat', RingOffset.toNat_toWord]
  simp only [ringSize] at *
  omega

/-- A new high byte keeps three bits, so it leaves the pointer in its ring. -/
theorem word_set_pointerHigh_lt (r : RegisterBank) {cell : Nat} (value : UInt8) (h : cell < bankSize) :
    ((r.set cell (Engine.pointerHigh value)).word cell).toNat < ringSize := by
  have := toNat_pointerHigh_lt value
  have := (r.get (cell + 1)).toNat_lt
  rw [word_set_high r _ h, toNat_wordOf]
  simp only [ringSize]
  omega

/-- A new low byte leaves a pointer in its ring that was there before. -/
theorem word_set_low_lt (r : RegisterBank) {cell : Nat} (value : UInt8) (h : cell + 1 < bankSize)
    (inRing : (r.word cell).toNat < ringSize) :
    ((r.set (cell + 1) value).word cell).toNat < ringSize := by
  have := value.toNat_lt
  rw [RegisterBank.word, toNat_wordOf] at inRing
  rw [word_set_low r _ h, toNat_wordOf]
  simp only [ringSize] at *
  omega

/-- The read position of the receive ring is free within its ring. -/
theorem Tidy.set_rxRead {r : RegisterBank} (h : Tidy r) {cell : Nat} (value : UInt8)
    (which : cell = Cell.rxRead ∨ cell = Cell.rxRead + 1)
    (inRing : ((r.set cell value).word Cell.rxRead).toNat < ringSize) : Tidy (r.set cell value) := by
  have same {other : Nat} (apart : other + 1 < Cell.rxRead) :
      (r.set cell value).word other = r.word other :=
    word_set_of_apart _ _ (by omega) (by omega)
  have txRead : _ = r.word Cell.txRead := same (by decide)
  have txWrite : _ = r.word Cell.txWrite := same (by decide)
  refine ⟨⟨?_, ?_, inRing⟩, ?_⟩
  · rw [txRead]
    exact h.txRead
  · rw [txWrite]
    exact h.txWrite
  · rw [pointer, pointer, txRead, txWrite, same (by decide), h.free, pointer, pointer]

end RegisterBank

namespace Engine

open RegisterBank

/-! ## One lemma for each part that a change can touch -/

theorem tidy_showFree {e : Engine} (h : InRings e.regs) : Tidy e.showFree.regs := by
  unfold showFree
  dsimp only
  refine ⟨h.of_words ?_ ?_ ?_, ?_⟩
  · exact word_setWord_of_apart _ _ (by decide)
  · exact word_setWord_of_apart _ _ (by decide)
  · exact word_setWord_of_apart _ _ (by decide)
  · rw [word_setWord_self _ _ (by decide), pointer, pointer, word_setWord_of_apart _ _ (by decide),
      word_setWord_of_apart _ _ (by decide)]
    rfl

theorem tidy_showSent {e : Engine} (h : Tidy e.regs) (position : RingOffset) :
    Tidy (e.showSent position).regs := by
  refine tidy_showFree ⟨?_, ?_, ?_⟩ <;> dsimp only
  · rw [word_setWord_self _ _ (by decide), RingOffset.toNat_toWord]
    exact position.isLt
  · rw [word_setWord_of_apart _ _ (by decide)]
    exact h.txWrite
  · rw [word_setWord_of_apart _ _ (by decide)]
    exact h.rxRead

theorem tidy_completeSend {e : Engine} (h : Tidy e.regs) (position : RingOffset) :
    Tidy (e.completeSend position).regs :=
  (tidy_showSent h position).set _ (by decide)

theorem tidy_store {e : Engine} (h : Tidy e.regs) (cell : Nat) (value : UInt8) :
    Tidy (e.store cell value).regs := by
  unfold store
  split
  · exact h.set _ (by decide)
  split
  · exact h
  rename_i readable
  split
  · refine tidy_showFree ⟨?_, word_set_pointerHigh_lt _ _ (by decide), ?_⟩ <;> dsimp only
    · rw [word_set_of_apart _ _ (by decide) (by decide)]
      exact h.txRead
    · rw [word_set_of_apart _ _ (by decide) (by decide)]
      exact h.rxRead
  split
  · refine tidy_showFree ⟨?_, word_set_low_lt _ _ (by decide) h.txWrite, ?_⟩ <;> dsimp only
    · rw [word_set_of_apart _ _ (by decide) (by decide)]
      exact h.txRead
    · rw [word_set_of_apart _ _ (by decide) (by decide)]
      exact h.rxRead
  split
  · exact h.set_rxRead _ (.inl rfl) (word_set_pointerHigh_lt _ _ (by decide))
  · by_cases low : cell = Cell.rxRead + 1
    · subst low
      exact h.set_rxRead _ (.inr rfl) (word_set_low_lt _ _ (by decide) h.rxRead)
    · refine h.set _ ?_
      simp only [readOnly, pointerCell, Bool.or_eq_true, beq_iff_eq, Bool.or_eq_false_iff,
        Bool.and_eq_false_iff, decide_eq_false_iff_not, beq_eq_false_iff_ne] at *
      simp only [Cell.status, Cell.txFree, Cell.txRead, Cell.txWrite, Cell.rxReceived, Cell.rxRead] at *
      omega

theorem tidy_emptied (e : Engine) : Tidy e.emptied.regs := by
  unfold emptied resetPointers
  dsimp only
  refine ⟨⟨?_, ?_, ?_⟩, ?_⟩ <;>
    simp (disch := decide) only [pointer, word_setWord_of_apart, word_setWord_self] <;> decide

theorem tidy_powerOn : Tidy powerOn.regs := by
  refine ⟨⟨?_, ?_, ?_⟩, ?_⟩ <;> decide

/-! ## Every change -/

theorem Quiet.tidy {e e' : Engine} (change : Quiet e e') (h : Tidy e.regs) : Tidy e'.regs := by
  cases change with
  | storedTx | connecting | renewed | captured => exact h
  | listening | connected | released => exact h.set _ (by decide)
  | accepted id peer => exact (h.showPeer peer).set _ (by decide)
  | advanced position => exact tidy_showSent h position
  | flushed position => exact tidy_completeSend (e := { e with sendEnd := none }) h position
  | dispatched position => exact tidy_completeSend h position

theorem Reopened.tidy {e e' : Engine} (reopened : Reopened e e') : Tidy e'.regs := by
  cases reopened with
  | failed => exact tidy_emptied e
  | stream | datagram => exact (tidy_emptied e).set _ (by decide)

theorem Change.tidy {e e' : Engine} (change : Change e e') (h : Tidy e.regs) : Tidy e'.regs := by
  cases change with
  | quiet change => exact change.tidy h
  | stored cell value => exact tidy_store h cell value
  | storedRx => exact h
  | delivered data => exact Tidy.set (h.setWord _ (by decide) (by decide)) _ (by decide)
  | acknowledged => exact h.setWord _ (by decide) (by decide)
  | reopened _ reopened => exact reopened.tidy
  | restored => exact tidy_powerOn

/-- A closed socket stays closed or is opened again, which leaves tidy registers. -/
theorem Change.closed_or_tidy {e e' : Engine} (change : Change e e') (h : e.status = .closed) :
    e'.status = .closed ∨ Tidy e'.regs := by
  cases change with
  | quiet change => exact .inl (change.status_closed h)
  | stored cell value => exact .inl ((status_store e cell value).trans h)
  | storedRx | delivered | acknowledged => exact .inl h
  | reopened _ reopened => exact .inr reopened.tidy
  | restored => exact .inl rfl

variable {ν : Type} [NetHost ν]

/-! ## Histories

`strict` is a condition under which closed sockets count too: that nothing is loaded. -/

theorem tidy_trace {strict : Prop} {e : Engine} (h : e.status ≠ .closed ∨ strict → Tidy e.regs)
    (events : List (Event × ν)) (loads : ∀ event ∈ events, event.1.isLoad → ¬ strict)
    (live : (e.trace events).status ≠ .closed ∨ strict) : Tidy (e.trace events).regs := by
  refine Change.trace_keeps (P := fun e => e.status ≠ .closed ∨ strict → Tidy e.regs)
    (fun {e e'} change h live => ?_) h events (fun event mem load state live => ?_) live
  · by_cases before : e.status ≠ .closed ∨ strict
    · exact change.tidy (h before)
    · obtain ⟨closed, lax⟩ := not_or.mp before
      exact (change.closed_or_tidy (Classical.not_not.mp closed)).resolve_left fun closed =>
        live.elim (absurd closed) lax
  · exact live.elim (absurd rfl) fun s => absurd s (loads event mem load)

/-- Read position at which the received size was last counted, if it was at `from` before. -/
def countedFrom (e : Engine) (start : RingOffset) : List (Event × ν) → RingOffset
  | [] => start
  | (event, net) :: events =>
    let e' := (e.step event net).1
    countedFrom e' (if e.Recounts net event then e'.rxRead else start) events

/-- The received size is the distance from a position to the write position. -/
def ShownFrom (e : Engine) (start : RingOffset) : Prop :=
  e.intake.shown = UInt16.ofNat (RingOffset.distance start e.rxWrite)

theorem shown_step {strict : Prop} {e : Engine} {start : RingOffset}
    (h : e.status ≠ .closed ∨ strict → ShownFrom e start) (event : Event) (net : ν)
    (load : event.isLoad → ¬ strict) (live : (e.step event net).1.status ≠ .closed ∨ strict) :
    ShownFrom (e.step event net).1
      (if e.Recounts net event then (e.step event net).1.rxRead else start) := by
  split
  · rename_i recounts
    exact counted_of_recounts e event net recounts
  rename_i quiet
  cases isLoad : event.isLoad
  · obtain ⟨shown, write, closed⟩ := step_keeps e event net quiet isLoad
    rw [ShownFrom, shown, write]
    exact h (live.imp_left (mt closed))
  · cases event with
    | load state => exact live.elim (absurd rfl) fun s => absurd s (load isLoad)
    | _ => exact absurd isLoad Bool.false_ne_true

theorem shown_trace {strict : Prop} {e : Engine} {start : RingOffset}
    (h : e.status ≠ .closed ∨ strict → ShownFrom e start) (events : List (Event × ν))
    (loads : ∀ event ∈ events, event.1.isLoad → ¬ strict)
    (live : (e.trace events).status ≠ .closed ∨ strict) :
    ShownFrom (e.trace events) (countedFrom e start events) := by
  induction events generalizing e start with
  | nil => exact h live
  | cons event events ih =>
    exact ih (shown_step h event.1 event.2 (loads event (.head _)))
      (fun event mem => loads event (.tail _ mem)) live

theorem toNat_ofNat_distance (start stop : RingOffset) :
    (UInt16.ofNat (RingOffset.distance start stop)).toNat = RingOffset.distance start stop := by
  have := RingOffset.distance_lt start stop
  simp only [UInt16.toNat_ofNat', ringSize] at *
  omega

theorem toNat_ofNat_free (start stop : RingOffset) :
    (UInt16.ofNat (ringSize - RingOffset.distance start stop)).toNat + RingOffset.distance start stop =
      ringSize := by
  have := RingOffset.distance_lt start stop
  simp only [UInt16.toNat_ofNat', ringSize] at *
  omega

/-- **Ring pointers.** After every history from power-on, whatever the host answers and whatever is
loaded, a socket that is not closed has its pointers in the rings; free size and waiting bytes add
up to the transmit ring's capacity; and the received size is the distance from the read position at
which it was last counted. Without loading, so has a closed one. -/
theorem ring_pointers (events : List (Event × ν))
    (live : (powerOn.trace events).status ≠ .closed ∨ ∀ event ∈ events, event.1.isLoad = false) :
    let e := powerOn.trace events
    (e.regs.word Cell.txRead).toNat < ringSize ∧
    (e.regs.word Cell.txWrite).toNat < ringSize ∧
    (e.regs.word Cell.rxRead).toNat < ringSize ∧
    e.rxWrite.val < ringSize ∧
    (e.regs.word Cell.txFree).toNat + RingOffset.distance e.txRead e.txWrite = ringSize ∧
    (e.regs.word Cell.rxReceived).toNat =
      RingOffset.distance (countedFrom powerOn powerOn.rxRead events) e.rxWrite ∧
    ∀ event (net : ν), e.Recounts net event → let e' := (e.step event net).1
      (e'.regs.word Cell.rxReceived).toNat = RingOffset.distance e'.rxRead e'.rxWrite := by
  intro e
  have loads : ∀ event ∈ events, event.1.isLoad → ¬ ∀ event ∈ events, event.1.isLoad = false :=
    fun event mem load none => absurd (none event mem) (load ▸ Bool.noConfusion)
  have tidy := tidy_trace (fun _ => tidy_powerOn) events loads live
  have shown : ShownFrom e (countedFrom powerOn powerOn.rxRead events) :=
    shown_trace (fun _ => by rw [ShownFrom]; decide) events loads live
  refine ⟨tidy.txRead, tidy.txWrite, tidy.rxRead, e.rxWrite.isLt, ?_, ?_, fun event net recounts => ?_⟩
  · rw [tidy.free]
    exact toNat_ofNat_free _ _
  · exact (congrArg UInt16.toNat shown).trans (toNat_ofNat_distance _ _)
  · exact (congrArg UInt16.toNat (counted_of_recounts e event net recounts)).trans
      (toNat_ofNat_distance _ _)

/-- A saved state of ones everywhere, then a datagram socket that takes three bytes in. -/
def loadThenReceive : List (Event × Network) :=
  [(.load { registers := List.replicate 48 0xFF, rxWrite := 0xFFFF }, {}),
    (.write {} Cell.mode Protocol.udp.code, {}), (.command {} Command.openSocket.code, {}),
    (.deliver [1, 2, 3], {}), (.write {} (Cell.rxRead + 1) 2, {})]

theorem ring_pointers_after_load :
    let e := powerOn.trace loadThenReceive
    (e.status ≠ .closed ∨ ∀ event ∈ loadThenReceive, event.1.isLoad = false) ∧
    (e.regs.word Cell.rxReceived).toNat =
      RingOffset.distance (countedFrom powerOn powerOn.rxRead loadThenReceive) e.rxWrite := by
  have live : (powerOn.trace loadThenReceive).status ≠ .closed ∨
      ∀ event ∈ loadThenReceive, event.1.isLoad = false := .inl (by decide +kernel)
  exact ⟨live, (ring_pointers loadThenReceive live).2.2.2.2.2.1⟩

end Engine

end EtherChip

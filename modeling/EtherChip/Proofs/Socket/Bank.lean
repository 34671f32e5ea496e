import EtherChip.Socket.Registers

/-!
# Words of a register bank

A word is two neighbouring cells. These lemmas say what a change of one cell or of one word does
to a word; all of them are about cells by number, so a condition on concrete cells is decided.
-/
namespace EtherChip.RegisterBank

theorem word_set_of_apart (r : RegisterBank) {cell other : Nat} (value : UInt8) (h : cell ≠ other)
    (h' : cell ≠ other + 1) : (r.set cell value).word other = r.word other := by
  rw [word, get_set_of_ne _ _ h.symm, get_set_of_ne _ _ h'.symm, word]

theorem word_setWord_of_apart (r : RegisterBank) {cell other : Nat} (value : UInt16)
    (h : cell + 1 < other ∨ other + 1 < cell) : (r.setWord cell value).word other = r.word other := by
  rw [setWord, word_set_of_apart _ _ (by omega) (by omega), word_set_of_apart _ _ (by omega) (by omega)]

/-- Writing the cell at which a word starts changes its high byte. -/
theorem word_set_high (r : RegisterBank) {cell : Nat} (value : UInt8) (h : cell < bankSize) :
    (r.set cell value).word cell = wordOf value (r.get (cell + 1)) := by
  rw [word, get_set_self _ _ h, get_set_of_ne _ _ (Nat.succ_ne_self cell)]

/-- Writing the second cell of a word changes its low byte. -/
theorem word_set_low (r : RegisterBank) {cell : Nat} (value : UInt8) (h : cell + 1 < bankSize) :
    (r.set (cell + 1) value).word cell = wordOf (r.get cell) value := by
  rw [word, get_set_self _ _ h, get_set_of_ne _ _ (Nat.succ_ne_self cell).symm]

theorem get_setDestAddr_of_lt (r : RegisterBank) {cell : Nat} (ip : Ipv4)
    (h : cell < Cell.destAddr ∨ Cell.destAddr + 3 < cell) :
    (r.setDestAddr ip).get cell = r.get cell := by
  unfold setDestAddr
  simp only [Cell.destAddr] at h ⊢
  rw [get_set_of_ne _ _ (by omega), get_set_of_ne _ _ (by omega), get_set_of_ne _ _ (by omega),
    get_set_of_ne _ _ (by omega)]

theorem word_setDestAddr (r : RegisterBank) {cell : Nat} (ip : Ipv4) (h : Cell.destAddr + 3 < cell) :
    (r.setDestAddr ip).word cell = r.word cell := by
  rw [word, get_setDestAddr_of_lt _ _ (.inr h), get_setDestAddr_of_lt _ _ (.inr (by omega)), word]

end EtherChip.RegisterBank

namespace EtherChip

/-- A pointer that the chip stores reads back as the same position. -/
theorem RegisterBank.pointer_of_word {r : RegisterBank} {cell : Nat} {o : RingOffset}
    (h : r.word cell = o.toWord) : r.pointer cell = o := by
  rw [RegisterBank.pointer, h, RingOffset.ofWord_toWord]

theorem RingOffset.toNat_toWord (o : RingOffset) : o.toWord.toNat = o.val := by
  have := o.isLt
  simp only [RingOffset.toWord, UInt16.toNat_ofNat', ringSize] at *
  omega

end EtherChip

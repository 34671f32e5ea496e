import EtherChip.Proofs.Checked.Primitive

/-!
# Rings with checked copies

Positions in a ring are register words here, and any word can stand in a register. The low eleven bits of a
word are an index of every ring, so that cells and both runs of a copy lie in the ring whatever the words
are (`copyOut_eq`, `copyIn_eq`).
-/
namespace EtherChip.Checked

open RingOffset (ofWord toWord)

/-- The bits of a word that count. -/
def masked (w : UInt16) : UInt16 := w &&& 0x7FF

/-- Bytes from one word forward to another: a difference that wraps. -/
def distance (start stop : UInt16) : UInt16 := masked (stop - start)

theorem toNat_masked (w : UInt16) : (masked w).toNat = (ofWord w).val := by
  rw [masked, UInt16.toNat_and]
  exact Nat.and_two_pow_sub_one_eq_mod w.toNat 11

theorem toNat_distance (start stop : UInt16) :
    (distance start stop).toNat = RingOffset.distance (ofWord start) (ofWord stop) := by
  have := start.toNat_lt
  have := stop.toNat_lt
  rw [distance, toNat_masked]
  simp only [RingOffset.ofWord, RingOffset.val_ofNat, RingOffset.distance, UInt16.toNat_sub, ringSize]
  omega

theorem ofWord_masked (w : UInt16) : ofWord (masked w) = ofWord w := by
  apply Fin.ext
  have low := toNat_masked w
  have := (ofWord w).isLt
  simp only [RingOffset.ofWord, RingOffset.val_ofNat, ringSize] at *
  omega

theorem masked_ofNat (n : Nat) : masked (UInt16.ofNat n) = (RingOffset.ofNat n).toWord := by
  apply UInt16.toNat_inj.mp
  have := (RingOffset.ofNat n).isLt
  simp only [toNat_masked, RingOffset.ofWord, RingOffset.toWord, RingOffset.val_ofNat, UInt16.toNat_ofNat',
    ringSize] at *
  omega

/-! ## Operations -/

def getCell (r : Ring) (offset : UInt16) : Option UInt8 := r.cells[(masked offset).toNat]?

def setCell (r : Ring) (offset : UInt16) (value : UInt8) : Option Ring := do
  return ⟨← put r.cells (masked offset).toNat value⟩

def copyOut (r : Ring) (start : UInt16) (len : Nat) : Option Bytes := do
  let start := (masked start).toNat
  let len := min len ringSize
  let run := min len (← sub ringSize start)
  let upper ← slice r.toBytes start (← add indexSize start run)
  let lower ← slice r.toBytes 0 (← sub len run)
  return upper ++ lower

/-- Gives the word just past the last byte. -/
def copyIn (r : Ring) (start : UInt16) (data : Bytes) : Option (Ring × UInt16) := do
  let start := (masked start).toNat
  let data ← slice data 0 (min data.length ringSize)
  let run := min data.length (← sub ringSize start)
  let cells ← fill r.cells start (← add indexSize start run) (← slice data 0 run)
  let cells ← fill cells 0 (← sub data.length run) (← slice data run data.length)
  return (⟨cells⟩, masked (UInt16.ofNat (← add indexSize start data.length)))

/-! ## No operation fails -/

theorem getCell_eq (r : Ring) (offset : UInt16) : getCell r offset = some (r.get (ofWord offset)) := by
  unfold getCell
  simp only [toNat_masked]
  exact Vector.getElem?_eq_getElem (ofWord offset).isLt

theorem setCell_eq (r : Ring) (offset : UInt16) (value : UInt8) :
    setCell r offset value = some (r.set (ofWord offset) value) := by
  unfold setCell
  simp only [toNat_masked, put_eq _ _ (ofWord offset).isLt]
  rfl

/-- The range of cells that a bulk operation reads. -/
theorem slice_toBytes (r : Ring) {start stop : Nat} (order : start ≤ stop) (inside : stop ≤ ringSize) :
    slice r.toBytes start stop = some (r.cells.toArray.extract start stop).toList := by
  rw [slice_eq order (by rwa [Ring.length_toBytes]), Array.toList_extract, List.extract_eq_take_drop, List.drop_take]
  rfl

theorem copyOut_eq (r : Ring) (start : UInt16) (len : Nat) :
    copyOut r start len = some (r.copyOut (ofWord start) len) := by
  have bound := (ofWord start).isLt
  unfold copyOut Ring.copyOut
  simp only [toNat_masked]
  refine pass (sub_eq (Nat.le_of_lt bound)) (pass (add_eq ?_) (pass (slice_toBytes r ?_ ?_) (pass (sub_eq ?_)
    (pass (slice_toBytes r ?_ ?_) rfl))))
  all_goals simp only [ringSize, indexSize] at *
  all_goals omega

theorem copyIn_eq (r : Ring) (start : UInt16) (data : Bytes) :
    copyIn r start data =
      some ((r.copyIn (ofWord start) data).1, (r.copyIn (ofWord start) data).2.toWord) := by
  have bound := (ofWord start).isLt
  have short : (data.take ringSize).length ≤ ringSize := List.length_take_le ..
  unfold copyIn Ring.copyIn
  simp only [toNat_masked]
  refine pass (slice_capped ..) ?_
  generalize data.take ringSize = data at *
  refine pass (sub_eq (Nat.le_of_lt bound)) ?_
  generalize run : min data.length (ringSize - (ofWord start).val) = n at *
  have within : n ≤ data.length := by omega
  refine pass (add_eq ?_) (pass (slice_front within) (pass (fill_eq ?_ ?_) (pass (sub_eq within)
    (pass (slice_back within) (pass (fill_eq ?_ ?_) (pass (add_eq ?_) ?_))))))
  all_goals simp only [ringSize, indexSize, List.length_take, List.length_drop] at *
  case refine_7 => rw [masked_ofNat]; rfl
  all_goals omega

end EtherChip.Checked

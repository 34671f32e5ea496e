import EtherChip.Socket.Ring

/-!
# Bytes in a ring

A ring holds the bytes from one position to another, read around its end. `copyOut_eq` gives them
one by one, so that what holds of single cells carries over: a copy splits at every position
(`copyOut_add`), a change outside leaves it alone (`copyOut_congr`), and bytes that are written where
it ends come after it (`copyOut_append`). Writing cell by cell and `copyIn` both write in this sense
(`Written`), which settles what becomes of every cell, so bulk copies are what single cells make of them
(`copies_cellwise`).
-/
namespace EtherChip

namespace RingOffset

theorem advance_zero (o : RingOffset) : o.advance 0 = o := by
  have := o.isLt
  apply Fin.ext
  simp only [val_advance, ringSize] at *
  omega

theorem advance_advance (o : RingOffset) (m n : Nat) : (o.advance m).advance n = o.advance (m + n) := by
  apply Fin.ext
  simp only [val_advance, ringSize]
  omega

theorem distance_self (o : RingOffset) : distance o o = 0 := by
  have := o.isLt
  simp only [distance, ringSize] at *
  omega

theorem distance_eq_zero {start stop : RingOffset} : distance start stop = 0 ↔ start = stop := by
  refine ⟨fun h => ?_, fun h => h ▸ distance_self start⟩
  rw [← advance_distance start stop, h, advance_zero]

/-- Going on from the end of a stretch makes it longer, up to a whole turn. -/
theorem distance_advance_right (start stop : RingOffset) (n : Nat) :
    distance start (stop.advance n) = (distance start stop + n) % ringSize := by
  have := start.isLt
  have := stop.isLt
  simp only [distance, val_advance, ringSize] at *
  omega

/-- Going on from the start of a stretch makes it shorter. -/
theorem distance_advance_left {start stop : RingOffset} {n : Nat} (h : n ≤ distance start stop) :
    distance (start.advance n) stop = distance start stop - n := by
  have := start.isLt
  have := stop.isLt
  simp only [distance, val_advance, ringSize] at *
  omega

theorem advance_ofWord (a : UInt16) (i : Nat) : (ofWord a).advance i = ofNat (a.toNat + i) := by
  apply Fin.ext
  simp only [ofWord, val_ofNat, val_advance, ringSize]
  omega

/-- A word that counts up past its end stays on the ring's way, since the ring's size divides it. -/
theorem ofWord_add (start : UInt16) (n : Nat) : ofWord (start + UInt16.ofNat n) = (ofWord start).advance n := by
  apply Fin.ext
  simp only [ofWord, val_ofNat, val_advance, UInt16.toNat_add, UInt16.toNat_ofNat', ringSize]
  omega

end RingOffset

/-- A cell after bytes have been written from `start` on. -/
theorem getElem_overlay {n : Nat} (cells : Vector UInt8 n) (start : Nat) (data : Bytes) {j : Nat} (h : j < n) :
    (overlay cells start data)[j] =
      if start ≤ j then (data[j - start]?).getD cells[j] else cells[j] := by
  induction data generalizing cells start with
  | nil => simp [overlay]
  | cons b bs ih =>
    rw [overlay, ih, Vector.getElem_setIfInBounds h]
    by_cases here : start = j
    · subst here
      rw [if_neg (by omega), if_pos (Nat.le_refl _), if_pos rfl, Nat.sub_self]
      rfl
    · by_cases after : start ≤ j
      · have index : j - start = j - (start + 1) + 1 := by omega
        rw [if_pos (by omega), if_pos after, if_neg here, index, List.getElem?_cons_succ]
      · rw [if_neg (by omega), if_neg after, if_neg here]

namespace Ring

open RingOffset

/-- Bytes have been written from a position on, and nothing else has changed. -/
def Written (r r' : Ring) (start : RingOffset) (data : Bytes) : Prop :=
  ∀ o, r'.get o = (data[distance start o]?).getD (r.get o)

/-- Where bytes have been written, one by one. -/
theorem Written.get_advance {r r' : Ring} {start : RingOffset} {data : Bytes} (h : Written r r' start data) {i : Nat}
    (lt : i < data.length) (turn : i < ringSize) : r'.get (start.advance i) = data[i] := by
  rw [h, distance_advance, Nat.mod_eq_of_lt turn, List.getElem?_eq_getElem lt, Option.getD_some]

/-- Where nothing has been written. -/
theorem Written.get_of_ne {r r' : Ring} {start o : RingOffset} {data : Bytes} (h : Written r r' start data)
    (other : ∀ i < data.length, start.advance i ≠ o) : r'.get o = r.get o := by
  have past : data.length ≤ distance start o := Nat.le_of_not_lt fun lt => other _ lt (advance_distance start o)
  rw [h, List.getElem?_eq_none past, Option.getD_none]

theorem eq_of_get {r r' : Ring} (same : ∀ o, r.get o = r'.get o) : r = r' := by
  obtain ⟨cells⟩ := r
  obtain ⟨cells'⟩ := r'
  congr 1
  apply Vector.ext
  intro i h
  exact same ⟨i, h⟩

/-- What has been written settles the whole ring. -/
theorem Written.unique {r r₁ r₂ : Ring} {start : RingOffset} {data : Bytes} (first : Written r r₁ start data)
    (second : Written r r₂ start data) : r₁ = r₂ := by
  apply eq_of_get
  intro o
  rw [first, second]

/-- The bytes that are copied out, one by one. -/
theorem copyOut_eq (r : Ring) (start : RingOffset) (len : Nat) :
    r.copyOut start len = (List.range (min len ringSize)).map fun i => r.get (start.advance i) := by
  have := start.isLt
  apply List.ext_getElem
  · simp only [copyOut, List.length_append, Array.length_toList, Array.size_extract, Vector.size_toArray,
      List.length_map, List.length_range, ringSize] at *
    omega
  · intro i h _
    simp only [copyOut, List.getElem_append, Array.length_toList, Array.size_extract, Vector.size_toArray,
      Array.getElem_toList, Array.getElem_extract, Vector.getElem_toArray, List.getElem_map,
      List.getElem_range, get, Fin.getElem_fin, val_advance, ringSize] at *
    simp only [copyOut, List.length_append, Array.length_toList, Array.size_extract, Vector.size_toArray,
      ringSize] at h
    split <;> congr 1 <;> omega

@[simp] theorem length_copyOut (r : Ring) (start : RingOffset) (len : Nat) :
    (r.copyOut start len).length = min len ringSize := by
  rw [copyOut_eq, List.length_map, List.length_range]

@[simp] theorem copyOut_zero (r : Ring) (start : RingOffset) : r.copyOut start 0 = [] := by
  rw [copyOut_eq, Nat.zero_min, List.range_zero, List.map_nil]

theorem copyOut_of_le (r : Ring) (start : RingOffset) {len : Nat} (fits : len ≤ ringSize) :
    r.copyOut start len = (List.range len).map fun i => r.get (start.advance i) := by
  rw [copyOut_eq, Nat.min_eq_left fits]

/-- No copy is longer than the ring. -/
theorem copyOut_min (r : Ring) (start : RingOffset) (len : Nat) :
    r.copyOut start (min len ringSize) = r.copyOut start len := by
  rw [copyOut_eq, copyOut_eq, Nat.min_assoc, Nat.min_self]

/-- A copy splits at every position on its way. -/
theorem copyOut_add (r : Ring) (start : RingOffset) {m n : Nat} (h : m + n ≤ ringSize) :
    r.copyOut start (m + n) = r.copyOut start m ++ r.copyOut (start.advance m) n := by
  have front : m ≤ ringSize := Nat.le_trans (Nat.le_add_right m n) h
  have back : n ≤ ringSize := Nat.le_trans (Nat.le_add_left n m) h
  rw [copyOut_of_le r start h, copyOut_of_le r start front, copyOut_of_le r _ back, List.range_add, List.map_append]
  simp only [List.map_map, Function.comp_def, advance_advance]

theorem drop_copyOut (r : Ring) (start : RingOffset) {k len : Nat} (h : k ≤ len) (fits : len ≤ ringSize) :
    (r.copyOut start len).drop k = r.copyOut (start.advance k) (len - k) := by
  obtain ⟨n, rfl⟩ := Nat.exists_eq_add_of_le h
  rw [copyOut_add r start fits, List.drop_left' (by rw [length_copyOut]; omega), Nat.add_sub_cancel_left]

theorem take_copyOut (r : Ring) (start : RingOffset) (k len : Nat) :
    (r.copyOut start len).take k = r.copyOut start (min k len) := by
  rw [copyOut_eq, copyOut_eq, ← List.map_take, List.take_range]
  congr 2
  omega

/-- The front of a copy is a shorter copy. -/
theorem front_copyOut {r : Ring} {start : RingOffset} {len : Nat} (fits : len ≤ ringSize) {front rest : Bytes}
    (whole : front ++ rest = r.copyOut start len) :
    front.length + rest.length = len ∧ front = r.copyOut start front.length := by
  have total := congrArg List.length whole
  rw [List.length_append, length_copyOut, Nat.min_eq_left fits] at total
  refine ⟨total, ?_⟩
  rw [← total, copyOut_add r start (total ▸ fits)] at whole
  refine (List.append_inj whole ?_).1
  rw [length_copyOut]
  omega

/-- Only the cells on the way matter. -/
theorem copyOut_congr {r r' : Ring} {start : RingOffset} {len : Nat}
    (h : ∀ o, distance start o < len → r'.get o = r.get o) : r'.copyOut start len = r.copyOut start len := by
  rw [copyOut_eq, copyOut_eq]
  apply List.map_congr_left
  intro i mem
  have bound := List.mem_range.mp mem
  apply h
  rw [distance_advance]
  have := Nat.mod_le i ringSize
  omega

/-- Bytes that have been written from a position on are read back from there. -/
theorem Written.copyOut_self {r r' : Ring} {start : RingOffset} {data : Bytes} (h : Written r r' start data)
    (fits : data.length ≤ ringSize) : r'.copyOut start data.length = data := by
  rw [copyOut_of_le r' start fits]
  apply List.ext_getElem
  · rw [List.length_map, List.length_range]
  · intro i _ bound
    have turn : i % ringSize = i := Nat.mod_eq_of_lt (Nat.lt_of_lt_of_le bound fits)
    rw [List.getElem_map, List.getElem_range, h, distance_advance, turn, List.getElem?_eq_getElem bound,
      Option.getD_some]

/-- **Bytes that are written where a copy ends come after it.** -/
theorem Written.copyOut_append {r r' : Ring} {start stop : RingOffset} {data : Bytes}
    (h : Written r r' stop data) (fits : distance start stop + data.length ≤ ringSize) :
    r'.copyOut start (distance start stop + data.length) = r.copyOut start (distance start stop) ++ data := by
  rw [copyOut_add r' start fits, advance_distance, h.copyOut_self (by omega)]
  congr 1
  refine copyOut_congr fun o before => ?_
  have past : data.length ≤ distance stop o := by
    have := start.isLt
    have := stop.isLt
    have := o.isLt
    simp only [distance, ringSize] at *
    omega
  rw [h, List.getElem?_eq_none past, Option.getD_none]

/-! ## What writes -/

theorem copyIn_eq (r : Ring) (start : RingOffset) {data : Bytes} (fits : data.length ≤ ringSize) :
    r.copyIn start data =
      (let run := min data.length (ringSize - start.val)
       ⟨overlay (overlay r.cells start.val (data.take run)) 0 (data.drop run)⟩, start.advance data.length) := by
  rw [copyIn, List.take_of_length_le fits]

theorem written_copyIn (r : Ring) (start : RingOffset) {data : Bytes} (fits : data.length ≤ ringSize) :
    Written r (r.copyIn start data).1 start data := by
  intro o
  have := o.isLt
  have := start.isLt
  rw [copyIn_eq r start fits]
  simp only [get, Fin.getElem_fin, getElem_overlay, Nat.zero_le, if_true, Nat.sub_zero,
    List.getElem?_drop, List.getElem?_take, distance]
  by_cases wrapped : o.val < start.val
  · -- the second run of the copy, or nothing at all
    rw [if_neg (Nat.not_le.mpr wrapped), Nat.mod_eq_of_lt (by omega)]
    by_cases one : data.length ≤ ringSize - start.val
    · rw [Nat.min_eq_left one, List.getElem?_eq_none (by omega), List.getElem?_eq_none (by omega)]
    · rw [Nat.min_eq_right (by omega)]
      congr 2
      omega
  · have index : (o.val + ringSize - start.val) % ringSize = o.val - start.val := by
      simp only [ringSize] at *
      omega
    rw [if_pos (Nat.not_lt.mp wrapped), index, List.getElem?_eq_none (by omega), Option.getD_none]
    split
    · rfl
    · rw [List.getElem?_eq_none (by omega)]

theorem copyIn_snd (r : Ring) (start : RingOffset) {data : Bytes} (fits : data.length ≤ ringSize) :
    (r.copyIn start data).2 = start.advance data.length := by
  rw [copyIn_eq r start fits]

/-- Writes bytes cell by cell. -/
def setAll (r : Ring) (start : RingOffset) : Bytes → Ring
  | [] => r
  | b :: bs => (r.set start b).setAll (start.advance 1) bs

theorem written_setAll (r : Ring) (start : RingOffset) {data : Bytes} (fits : data.length ≤ ringSize) :
    Written r (r.setAll start data) start data := by
  induction data generalizing r start with
  | nil => intro o; rfl
  | cons b bs ih =>
    intro o
    rw [List.length_cons] at fits
    rw [setAll, ih _ _ (Nat.le_of_succ_le fits)]
    by_cases here : o = start
    · subst here
      have turn : bs.length ≤ distance (o.advance 1) o := by
        have := o.isLt
        simp only [distance, val_advance, ringSize] at *
        omega
      rw [List.getElem?_eq_none turn, Option.getD_none, get_set_self, distance_self]
      rfl
    · have ahead : distance start o ≠ 0 := fun h => here (distance_eq_zero.mp h).symm
      rw [distance_advance_left (Nat.one_le_iff_ne_zero.mpr ahead), get_set_of_ne _ _ here]
      obtain ⟨n, index⟩ := Nat.exists_eq_succ_of_ne_zero ahead
      rw [index]
      rfl

/-! ## Copies and single cells -/

/-- Stores bytes one by one, each at the word for its place behind the first. -/
def setEach (r : Ring) (start : UInt16) (data : Bytes) : Ring :=
  data.zipIdx.foldl (fun r (b, i) => r.set (ofWord (start + UInt16.ofNat i)) b) r

/-- Reads cells one by one, each at the word for its place behind the first. -/
def getEach (r : Ring) (start : UInt16) (len : Nat) : Bytes :=
  (List.range len).map fun i => r.get (ofWord (start + UInt16.ofNat i))

/-- Storing one by one from place `k` on. -/
theorem foldl_set_zipIdx (start : UInt16) (data : Bytes) (r : Ring) (k : Nat) :
    (data.zipIdx k).foldl (fun r (b, i) => r.set (ofWord (start + UInt16.ofNat i)) b) r =
      r.setAll ((ofWord start).advance k) data := by
  induction data generalizing r k with
  | nil => rfl
  | cons b bs ih =>
    rw [List.zipIdx_cons, List.foldl_cons, ih, setAll, advance_advance]
    simp only [ofWord_add]

theorem setEach_eq_setAll (r : Ring) (start : UInt16) (data : Bytes) :
    r.setEach start data = r.setAll (ofWord start) data := by
  rw [setEach, foldl_set_zipIdx, advance_zero]

theorem copyOut_eq_getEach (r : Ring) (start : UInt16) (len : Nat) :
    r.copyOut (ofWord start) len = r.getEach start (min len ringSize) := by
  simp only [copyOut_eq, getEach, ofWord_add]

/-- Bytes beyond one ring's worth are not looked at. -/
theorem copyIn_take (r : Ring) (start : RingOffset) (data : Bytes) :
    r.copyIn start data = r.copyIn start (data.take (min data.length ringSize)) := by
  have front : (data.take (min data.length ringSize)).take ringSize = data.take ringSize := by
    rw [List.take_take, List.take_eq_take_iff]
    omega
  rw [copyIn, copyIn, front]

/-- **Bulk copies and single cells.** From whatever word a copy starts, and however long it is: copying bytes
in leaves the ring as storing the first 2048 of them one by one does, and gives the position behind the last
of them; copying out lists what the cells hold one by one, up to 2048 of them. So what is copied in comes
back if it is not longer than the ring, and all other cells keep their bytes. -/
theorem copies_cellwise (r : Ring) (start : UInt16) (data : Bytes) (len : Nat) :
    let stored := r.copyIn (ofWord start) data
    let count := min data.length ringSize
    stored.1 = r.setEach start (data.take count) ∧
    stored.2.val = (start.toNat + count) % ringSize ∧
    r.copyOut (ofWord start) len = r.getEach start (min len ringSize) ∧
    (data.length ≤ ringSize → stored.1.copyOut (ofWord start) data.length = data) ∧
    ∀ o : UInt16, (∀ i < count, ofWord (start + UInt16.ofNat i) ≠ ofWord o) →
      stored.1.get (ofWord o) = r.get (ofWord o) := by
  intro stored count
  have length : (data.take count).length = count := by
    rw [List.length_take]
    exact Nat.min_eq_left (Nat.min_le_left ..)
  have fits : (data.take count).length ≤ ringSize := by
    rw [length]
    exact Nat.min_le_right ..
  have front : stored = r.copyIn (ofWord start) (data.take count) := copyIn_take ..
  have written : Written r stored.1 (ofWord start) (data.take count) := front ▸ written_copyIn r (ofWord start) fits
  refine ⟨?_, ?_, copyOut_eq_getEach r start len, fun short => ?_, fun o other => ?_⟩
  · rw [setEach_eq_setAll]
    exact written.unique (written_setAll r (ofWord start) fits)
  · rw [front, copyIn_snd r (ofWord start) fits, length, advance_ofWord, val_ofNat]
  · have all : data.take count = data := List.take_of_length_le (Nat.le_of_eq (Nat.min_eq_left short).symm)
    rw [all] at written
    exact written.copyOut_self short
  · refine written.get_of_ne fun i lt => ?_
    rw [← ofWord_add]
    exact other i (length ▸ lt)

end Ring

end EtherChip

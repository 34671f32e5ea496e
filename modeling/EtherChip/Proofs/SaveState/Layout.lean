import EtherChip.SaveState.Layout

/-!
# Reading and writing the layout

Each reader accepts exactly what its writer puts in front of something: it gives a value and a rest if
and only if the bytes are the written value followed by that rest, and the value's counts fit into
their eight bytes (`readSocket?_eq_some_iff` and its like, `read?_eq_some_iff` for the whole state). So
bytes have one reading at most, and nothing that ends before the last field has one
(`read?_of_cut`).
-/
namespace EtherChip

namespace Bytes

theorem ofLittleEndian_lt (bs : Bytes) : ofLittleEndian bs < Nat.pow 256 bs.length := by
  induction bs with
  | nil => decide
  | cons b bs ih =>
    have digit := b.toNat_lt
    have next : Nat.pow 256 (bs.length + 1) = Nat.pow 256 bs.length * 256 := rfl
    rw [ofLittleEndian, List.length_cons, next]
    omega

/-- Digits are those of the number that they stand for. -/
theorem littleEndian_ofLittleEndian (bs : Bytes) : littleEndian bs.length (ofLittleEndian bs) = bs := by
  induction bs with
  | nil => rfl
  | cons b bs ih =>
    have low : UInt8.ofNat (b.toNat + 256 * ofLittleEndian bs) = b := by
      rw [← UInt8.toNat_inj, UInt8.toNat_ofNat']
      have := b.toNat_lt
      omega
    have high : (b.toNat + 256 * ofLittleEndian bs) / 256 = ofLittleEndian bs := by
      have := b.toNat_lt
      omega
    rw [List.length_cons, ofLittleEndian, littleEndian, low, high, ih]

theorem ofLittleEndian_littleEndian_of_lt {width value : Nat} (fits : value < Nat.pow 256 width) :
    ofLittleEndian (littleEndian width value) = value := by
  rw [ofLittleEndian_littleEndian]
  exact Nat.mod_eq_of_lt fits

end Bytes

/-- Counts from here on do not fit into eight bytes. -/
def countLimit : Nat := 0x10000000000000000

/-- The byte strings of a socket are short enough for their counts. -/
structure SocketState.Fits (s : SocketState) : Prop where
  registers : s.registers.length < countLimit
  tx : s.tx.length < countLimit
  rx : s.rx.length < countLimit

/-- All byte strings and the list of sockets are short enough for their counts. -/
structure SaveState.Fits (s : SaveState) : Prop where
  common : s.common.length < countLimit
  count : s.sockets.length < countLimit
  sockets : ∀ socket ∈ s.sockets, socket.Fits

namespace Layout

variable {bs rest : Bytes}

/-! ## Numbers and byte strings -/

theorem readExactly?_eq_some_iff {n : Nat} {front : Bytes} :
    readExactly? n bs = some (front, rest) ↔ front.length = n ∧ bs = front ++ rest := by
  unfold readExactly?
  dsimp only
  constructor
  · intro read
    split at read
    · obtain ⟨rfl, rfl⟩ := Prod.mk.inj (Option.some.inj read)
      exact ⟨‹_›, (List.take_append_drop n bs).symm⟩
    · cases read
  · rintro ⟨rfl, rfl⟩
    rw [List.take_left, List.drop_left, if_pos rfl]

theorem readCount?_eq_some_iff {n : Nat} :
    readCount? bs = some (n, rest) ↔ n < countLimit ∧ bs = writeCount n ++ rest := by
  have limit : countLimit = Nat.pow 256 8 := by decide
  simp only [readCount?, Option.bind_eq_bind, Option.bind_eq_some_iff, Prod.exists, readExactly?_eq_some_iff,
    Option.pure_def, Option.some.injEq, Prod.mk.injEq, limit]
  constructor
  · rintro ⟨digits, _, ⟨eight, rfl⟩, rfl, rfl⟩
    have written : writeCount (Bytes.ofLittleEndian digits) = digits := by
      rw [writeCount, ← eight, Bytes.littleEndian_ofLittleEndian]
    exact ⟨eight ▸ Bytes.ofLittleEndian_lt digits, by rw [written]⟩
  · rintro ⟨fits, rfl⟩
    exact ⟨writeCount n, rest, ⟨Bytes.length_littleEndian 8 n, rfl⟩,
      Bytes.ofLittleEndian_littleEndian_of_lt fits, rfl⟩

theorem readBytes?_eq_some_iff {data : Bytes} :
    readBytes? bs = some (data, rest) ↔ data.length < countLimit ∧ bs = writeBytes data ++ rest := by
  simp only [readBytes?, Option.bind_eq_bind, Option.bind_eq_some_iff, Prod.exists, readCount?_eq_some_iff,
    readExactly?_eq_some_iff, writeBytes, List.append_assoc]
  constructor
  · rintro ⟨_, _, ⟨fits, rfl⟩, rfl, rfl⟩
    exact ⟨fits, rfl⟩
  · rintro ⟨fits, rfl⟩
    exact ⟨_, _, ⟨fits, rfl⟩, rfl, rfl⟩

/-- A word in two bytes, low byte first. -/
theorem ofLittleEndian_eq_word {digits : Bytes} (two : digits.length = 2) {w : UInt16} :
    UInt16.ofNat (Bytes.ofLittleEndian digits) = w ↔ digits = Bytes.littleEndian 2 w.toNat := by
  have small : Bytes.ofLittleEndian digits < 2 ^ 16 := by
    have bound := Bytes.ofLittleEndian_lt digits
    rw [two] at bound
    exact bound
  have whole : Bytes.littleEndian 2 (Bytes.ofLittleEndian digits) = digits := by
    rw [← two, Bytes.littleEndian_ofLittleEndian]
  constructor
  · rintro rfl
    rw [UInt16.toNat_ofNat', Nat.mod_eq_of_lt small, whole]
  · rintro rfl
    rw [Bytes.ofLittleEndian_littleEndian_of_lt w.toNat_lt, UInt16.ofNat_toNat]

/-! ## Sockets -/

theorem readSocket?_eq_some_iff {s : SocketState} :
    readSocket? bs = some (s, rest) ↔ s.Fits ∧ bs = writeSocket s ++ rest := by
  simp only [readSocket?, Option.bind_eq_bind, Option.bind_eq_some_iff, Prod.exists, readBytes?_eq_some_iff,
    readExactly?_eq_some_iff, Option.pure_def, Option.some.injEq, Prod.mk.injEq, writeSocket, List.append_assoc]
  constructor
  · rintro ⟨registers, _, ⟨short, rfl⟩, tx, _, ⟨short', rfl⟩, rx, _, ⟨short'', rfl⟩, digits, _, ⟨two, rfl⟩, rfl, rfl⟩
    have word := (ofLittleEndian_eq_word two).mp rfl
    exact ⟨⟨short, short', short''⟩, by rw [← word]⟩
  · rintro ⟨fits, rfl⟩
    have two := Bytes.length_littleEndian 2 s.rxWrite.toNat
    refine ⟨_, _, ⟨fits.registers, rfl⟩, _, _, ⟨fits.tx, rfl⟩, _, _, ⟨fits.rx, rfl⟩, _, _, ⟨two, rfl⟩, ?_, rfl⟩
    rw [(ofLittleEndian_eq_word two).mpr rfl]

theorem readSockets?_eq_some_iff {n : Nat} {sockets : List SocketState} :
    readSockets? n bs = some (sockets, rest) ↔
      sockets.length = n ∧ (∀ s ∈ sockets, s.Fits) ∧ bs = sockets.flatMap writeSocket ++ rest := by
  induction n generalizing bs rest sockets with
  | zero =>
    simp only [readSockets?, Option.some.injEq, Prod.mk.injEq]
    constructor
    · rintro ⟨rfl, rfl⟩
      exact ⟨rfl, nofun, rfl⟩
    · rintro ⟨none, -, rfl⟩
      obtain rfl := List.length_eq_zero_iff.mp none
      exact ⟨rfl, rfl⟩
  | succ n ih =>
    simp only [readSockets?, Option.bind_eq_bind, Option.bind_eq_some_iff, Prod.exists, readSocket?_eq_some_iff, ih,
      Option.pure_def, Option.some.injEq, Prod.mk.injEq]
    constructor
    · rintro ⟨s, _, ⟨fits, rfl⟩, later, _, ⟨rfl, all, rfl⟩, rfl, rfl⟩
      exact ⟨rfl, List.forall_mem_cons.mpr ⟨fits, all⟩, (List.append_assoc _ _ _).symm⟩
    · rintro ⟨len, all, rfl⟩
      cases sockets with
      | nil => cases len
      | cons s later =>
        obtain ⟨fits, all⟩ := List.forall_mem_cons.mp all
        exact ⟨s, _, ⟨fits, List.append_assoc _ _ _⟩, later, rest, ⟨Nat.succ.inj len, all, rfl⟩, rfl, rfl⟩

end Layout

/-! ## Saved states -/

namespace SaveState

variable {bs rest : Bytes} {s : SaveState}

/-- **The reader accepts exactly what has been written**, in front of anything. -/
theorem read?_eq_some_iff : read? bs = some (s, rest) ↔ s.Fits ∧ bs = s.toBytes ++ rest := by
  simp only [read?, Option.bind_eq_bind, Option.bind_eq_some_iff, Prod.exists, Layout.readBytes?_eq_some_iff,
    Layout.readCount?_eq_some_iff, Layout.readSockets?_eq_some_iff, Option.pure_def, Option.some.injEq,
    Prod.mk.injEq, toBytes, List.append_assoc]
  constructor
  · rintro ⟨common, _, ⟨short, rfl⟩, _, _, ⟨few, rfl⟩, sockets, _, ⟨rfl, all, rfl⟩, rfl, rfl⟩
    exact ⟨⟨short, few, all⟩, rfl⟩
  · rintro ⟨fits, rfl⟩
    exact ⟨_, _, ⟨fits.common, rfl⟩, _, _, ⟨fits.count, rfl⟩, _, _, ⟨rfl, fits.sockets, rfl⟩, rfl, rfl⟩

theorem read?_toBytes (fits : s.Fits) (rest : Bytes) : read? (s.toBytes ++ rest) = some (s, rest) :=
  read?_eq_some_iff.mpr ⟨fits, rfl⟩

/-- Bytes start with one written state at most. -/
theorem eq_of_toBytes_append {s' : SaveState} {rest' : Bytes} (fits : s.Fits) (fits' : s'.Fits)
    (same : s.toBytes ++ rest = s'.toBytes ++ rest') : s = s' ∧ rest = rest' := by
  have read := read?_toBytes fits rest
  rw [same, read?_toBytes fits' rest'] at read
  obtain ⟨state, more⟩ := Prod.mk.inj (Option.some.inj read)
  exact ⟨state.symm, more.symm⟩

/-- Nothing that ends before the last field of a written state can be read. -/
theorem read?_of_cut (fits : s.Fits) {front missing : Bytes} (whole : s.toBytes = front ++ missing)
    (more : missing ≠ []) : read? front = none := by
  cases read : read? front with
  | none => rfl
  | some found =>
    obtain ⟨fits', rfl⟩ := read?_eq_some_iff.mp read
    have same : s.toBytes ++ [] = found.1.toBytes ++ (found.2 ++ missing) := by
      rw [List.append_nil, whole, List.append_assoc]
    have none := (eq_of_toBytes_append fits fits' same).2
    exact absurd (List.append_eq_nil_iff.mp none.symm).2 more

end SaveState

end EtherChip

import EtherChip.Dump.Ring
import EtherChip.Proofs.Socket.RingCopy
import EtherChip.Proofs.Text.Reading

/-!
# Ring dumps are faithful

A line of a dump has its columns at fixed places: the ring position of its first byte, the bytes in
hexadecimal, and the bytes as text (`Shows`). Sixteen bytes go to a line, in the order in which they are
copied out of the ring (`ringLinesFrom_eq_map`), so reading the hexadecimal columns of all lines gives the
copy back, whatever its start and its length, and a dump tells any two copies apart (`ring_faithful`).
-/
namespace EtherChip.Dump

open RingOffset (ofWord)

/-! ## A line -/

/-- A line that shows bytes, the first of them from a position of the ring. -/
structure Shows (line : List Char) (position : Nat) (bs : Bytes) : Prop where
  /-- In front stands the position, in four digits. -/
  label : line.take 6 = Text.upperHex 4 position ++ [':', ' ']
  /-- The next 47 characters are two digits for each byte, with blanks between them and behind the last. -/
  hex : (line.drop 6).take 47 = ([' '].intercalate (bs.map fun b => Text.upperHex 2 b.toNat)).rightpad 47 ' '
  /-- The rest are the bytes once more, with a dot for everything that is not printable. -/
  text : line.drop 53 =
    [' ', ' '] ++ bs.map fun b => if 0x20 ≤ b.toNat ∧ b.toNat ≤ 0x7E then Char.ofNat b.toNat else '.'

theorem hexList_cons_cons (b next : UInt8) (bs : Bytes) :
    hexList (b :: next :: bs) = Text.hexByte b ++ ' ' :: hexList (next :: bs) := by
  simp [hexList, List.intercalate_cons_cons]

theorem length_hexList (bs : Bytes) : (hexList bs).length = 3 * bs.length - 1 := by
  induction bs with
  | nil => rfl
  | cons b bs ih =>
    cases bs with
    | nil => simp [hexList, Text.hexByte]
    | cons next bs =>
      rw [hexList_cons_cons, List.length_append, List.length_cons, ih]
      simp [Text.hexByte]
      omega

theorem words_hexList (bs : Bytes) : Text.words (hexList bs) = bs.map Text.hexByte := by
  refine Text.words_intercalate fun w member => ?_
  obtain ⟨b, -, rfl⟩ := List.mem_map.mp member
  constructor
  · exact List.ne_nil_of_length_eq_add_one (Text.length_hexDigits 2 b.toNat)
  · intro blank
    exact (Text.visible_of_mem_hexDigits blank).1 rfl

theorem printable_eq (b : UInt8) :
    printable b = if 0x20 ≤ b.toNat ∧ b.toNat ≤ 0x7E then Char.ofNat b.toNat else '.' := by
  have upper : b < 0x7F ↔ b.toNat ≤ 0x7E := UInt8.lt_iff_toNat_lt.trans Nat.lt_succ_iff
  simp only [printable, UInt8.le_iff_toNat_le, upper, UInt8.reduceToNat]

section

variable (offset : RingOffset) {bs : Bytes}

/-- A line cut at its columns. -/
theorem ringLine_columns (short : bs.length ≤ lineSize) :
    (ringLine offset bs).take 6 = Text.hexDigits 4 offset.val ++ [':', ' '] ∧
    ((ringLine offset bs).drop 6).take 47 = (hexList bs).rightpad 47 ' ' ∧
    (ringLine offset bs).drop 53 = [' ', ' '] ++ bs.map printable := by
  have pieces : ringLine offset bs = (Text.hexDigits 4 offset.val ++ [':', ' ']) ++
      ((hexList bs).rightpad 47 ' ' ++ ([' ', ' '] ++ bs.map printable)) := by
    simp [ringLine, hexColumn, List.rightpad]
  have front : (Text.hexDigits 4 offset.val ++ [':', ' ']).length = 6 := by simp
  have column : ((hexList bs).rightpad 47 ' ').length = 47 := by
    have wide := length_hexList bs
    simp only [List.rightpad, List.length_append, List.length_replicate, lineSize] at *
    omega
  refine ⟨?_, ?_, ?_⟩
  · rw [pieces, List.take_left' front]
  · rw [pieces, List.drop_left' front, List.take_left' column]
  · rw [pieces, show 53 = 6 + 47 from rfl, ← List.drop_drop, List.drop_left' front, List.drop_left' column]

theorem shows_ringLine (short : bs.length ≤ lineSize) : Shows (ringLine offset bs) offset.val bs := by
  obtain ⟨label, hex, text⟩ := ringLine_columns offset short
  have position : offset.val < Nat.pow 16 4 := Nat.lt_trans offset.isLt (by decide)
  have digits (b : UInt8) : Text.hexByte b = Text.upperHex 2 b.toNat :=
    Text.hexDigits_eq_upperHex (by decide) b.toNat_lt
  constructor
  · rw [label, Text.hexDigits_eq_upperHex (by decide) position]
  · rw [hex, hexList, funext digits]
  · rw [text, funext printable_eq]

/-! ## Reading dumps -/

/-- The bytes that the hexadecimal column of a line lists. -/
def lineBytes? (line : List Char) : Option Bytes := (Text.words ((line.drop 6).take 47)).mapM Text.readByte?

/-- The bytes that the hexadecimal columns of a dump list, line after line. -/
def bytes? (dump : String) : Option Bytes := ((Text.lines dump).mapM lineBytes?).map List.flatten

theorem mapM_readByte? (bs : Bytes) : (bs.map Text.hexByte).mapM Text.readByte? = some bs := by
  induction bs with
  | nil => rfl
  | cons b bs ih => simp [Text.readByte?_hexByte, ih]

theorem lineBytes?_ringLine (short : bs.length ≤ lineSize) : lineBytes? (ringLine offset bs) = some bs := by
  obtain ⟨-, hex, -⟩ := ringLine_columns offset short
  rw [lineBytes?, hex, List.rightpad, Text.words_append_replicate, words_hexList, mapM_readByte?]

theorem not_mem_hexList (bs : Bytes) : '\n' ∉ hexList bs := by
  induction bs with
  | nil => exact List.not_mem_nil
  | cons b bs ih =>
    have digits : '\n' ∉ Text.hexByte b := fun feed => (Text.visible_of_mem_hexDigits feed).2 rfl
    cases bs with
    | nil => exact digits
    | cons next bs =>
      rw [hexList_cons_cons, List.mem_append, List.mem_cons]
      rintro (h | h | h)
      · exact digits h
      · cases h
      · exact ih h

theorem printable_ne (b : UInt8) : printable b ≠ '\n' := by
  rw [printable_eq]
  split
  case isTrue visible =>
    intro same
    have code : (Char.ofNat b.toNat).toNat = b.toNat := by
      rw [Char.ofNat, dif_pos (.inl (by omega))]
      rfl
    rw [same] at code
    have feed : '\n'.toNat = 10 := rfl
    omega
  case isFalse => decide

theorem not_mem_ringLine : '\n' ∉ ringLine offset bs := by
  have label : '\n' ∉ Text.hexDigits 4 offset.val := fun feed => (Text.visible_of_mem_hexDigits feed).2 rfl
  have hex := not_mem_hexList bs
  have text : ∀ b ∈ bs, printable b ≠ '\n' := fun b _ => printable_ne b
  simpa [ringLine, label, hex] using text

/-! ## All lines -/

/-- Line `k` shows the bytes from place `16 * k` on. -/
theorem ringLinesFrom_eq_map (bs : Bytes) :
    ringLinesFrom offset bs = (List.range ((bs.length + 15) / 16)).map fun k =>
      ringLine (offset.advance (16 * k)) ((bs.drop (16 * k)).take lineSize) := by
  induction offset, bs using ringLinesFrom.induct with
  | case1 offset bs empty =>
    rw [ringLinesFrom, if_pos empty, empty]
    rfl
  | case2 offset bs more ih =>
    have count : (bs.length + 15) / 16 = ((bs.drop lineSize).length + 15) / 16 + 1 := by
      rw [List.length_drop, lineSize]
      omega
    rw [ringLinesFrom, if_neg more, count, List.range_succ_eq_map, List.map_cons, List.map_map, ih]
    congr 1
    · rw [Nat.mul_zero, RingOffset.advance_zero, List.drop_zero]
    · refine List.map_congr_left fun k _ => ?_
      have place : lineSize + 16 * k = 16 * (k + 1) := by
        rw [lineSize]
        omega
      rw [Function.comp_apply, RingOffset.advance_advance, List.drop_drop, place]

theorem lines_ring (r : Ring) (start : RingOffset) (len : Nat) :
    Text.lines (Dump.ring r start len) = ringLines r start len := by
  refine Text.lines_ofList fun l member => ?_
  rw [ringLines, ringLinesFrom_eq_map, List.mem_map] at member
  obtain ⟨k, -, rfl⟩ := member
  exact not_mem_ringLine _

theorem mapM_lineBytes? (bs : Bytes) : ((ringLinesFrom offset bs).mapM lineBytes?).map List.flatten = some bs := by
  induction offset, bs using ringLinesFrom.induct with
  | case1 offset bs empty =>
    rw [ringLinesFrom, if_pos empty, List.eq_nil_of_length_eq_zero empty]
    rfl
  | case2 offset bs more ih =>
    obtain ⟨later, read, same⟩ := Option.map_eq_some_iff.mp ih
    rw [ringLinesFrom, if_neg more, List.mapM_cons, lineBytes?_ringLine _ (List.length_take_le ..), read]
    simp [same]

/-- **Reading a dump gives the bytes that it was made of.** -/
theorem bytes?_ring (r : Ring) (start : RingOffset) (len : Nat) :
    bytes? (Dump.ring r start len) = some (r.copyOut start len) := by
  rw [bytes?, lines_ring, ringLines, mapM_lineBytes?]

end

/-- The bytes of a line, wherever the stretch that is shown passes the end of the ring. -/
theorem chunk_copyOut (r : Ring) (start : UInt16) {len k : Nat} (inside : 16 * k < min len ringSize) :
    ((r.copyOut (ofWord start) len).drop (16 * k)).take lineSize =
      (List.range (min 16 (min len ringSize - 16 * k))).map fun j => r.get (.ofNat (start.toNat + 16 * k + j)) := by
  have short : min 16 (min len ringSize - 16 * k) ≤ ringSize := Nat.le_trans (Nat.min_le_left ..) (by decide)
  rw [← Ring.copyOut_min, Ring.drop_copyOut r _ (Nat.le_of_lt inside) (Nat.min_le_right ..), Ring.take_copyOut,
    lineSize, Ring.copyOut_of_le r _ short]
  simp only [RingOffset.advance_advance]
  simp only [RingOffset.advance_ofWord, Nat.add_assoc]

/-- **Dumps are faithful.** For every ring, from wherever a dump starts and however long it is: it consists of
one line for every sixteen bytes that it shows, the last one of what is left. Each line shows the bytes of its
stretch of the ring, around the end of the ring if need be, under the position of the first one. Reading the
hexadecimal columns gives what is copied out of the ring, so dumps of the same stretch are the same text
exactly if the bytes are the same. -/
theorem ring_faithful (r : Ring) (start : UInt16) (len : Nat) :
    let dump := Dump.ring r (ofWord start) len
    let shown := min len ringSize
    let lines := Text.lines dump
    dump = String.ofList (lines.flatMap (· ++ ['\n'])) ∧
    lines.length = (shown + 15) / 16 ∧
    (∀ k (h : k < lines.length), Shows lines[k] ((start.toNat + 16 * k) % ringSize)
      ((List.range (min 16 (shown - 16 * k))).map fun j => r.get (.ofNat (start.toNat + 16 * k + j)))) ∧
    bytes? dump = some (r.copyOut (ofWord start) len) ∧
    ∀ r' : Ring,
      Dump.ring r' (ofWord start) len = dump ↔ r'.copyOut (ofWord start) len = r.copyOut (ofWord start) len := by
  intro dump shown lines
  have split : lines = ringLines r (ofWord start) len := lines_ring ..
  have listed : lines = (List.range ((shown + 15) / 16)).map fun k =>
      ringLine ((ofWord start).advance (16 * k)) (((r.copyOut (ofWord start) len).drop (16 * k)).take lineSize) := by
    rw [split, ringLines, ringLinesFrom_eq_map, Ring.length_copyOut]
  have count : lines.length = (shown + 15) / 16 := by rw [listed, List.length_map, List.length_range]
  refine ⟨?_, count, fun k h => ?_, bytes?_ring .., fun r' => ⟨fun same => ?_, fun same => ?_⟩⟩
  · rw [split]
    rfl
  · have inside : 16 * k < shown := by omega
    have line : lines[k] = ringLine ((ofWord start).advance (16 * k))
        (((r.copyOut (ofWord start) len).drop (16 * k)).take lineSize) := by
      simp only [listed, List.getElem_map, List.getElem_range]
    have position : ((ofWord start).advance (16 * k)).val = (start.toNat + 16 * k) % ringSize := by
      rw [RingOffset.advance_ofWord, RingOffset.val_ofNat]
    rw [line, ← chunk_copyOut r start inside, ← position]
    exact shows_ringLine _ (List.length_take_le ..)
  · have read := bytes?_ring r' (ofWord start) len
    rw [same] at read
    exact Option.some.inj (read.symm.trans (bytes?_ring ..))
  · unfold dump Dump.ring ringLines
    rw [same]

/-- Around the end of the ring, with a short last line. -/
example :
    (ringLines (Ring.empty.copyIn (ofWord 0xFFFE) [0x41, 0x42, 0x7F]).1 (ofWord 0xFFFE) 18).map String.ofList =
      ["07FE: 41 42 7F 00 00 00 00 00 00 00 00 00 00 00 00 00  AB..............",
        "000E: 00 00                                            .."] := by
  decide +kernel

end EtherChip.Dump

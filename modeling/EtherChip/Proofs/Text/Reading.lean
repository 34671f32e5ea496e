import EtherChip.Bytes
import EtherChip.Text.Hex

/-!
# Reading text back

What a dump is written with can be read back: hexadecimal digits as the number that they stand for
(`readHex?_hexDigits`), a column of words that is filled up with blanks as those words
(`words_intercalate`), a text as its lines (`lines_ofList`). The digits of a number are also those of the
usual notation to base sixteen, with zeros in front (`hexDigits_eq_upperHex`).
-/
namespace EtherChip.Text

/-! ## Hexadecimal digits -/

/-- A number in upper-case hexadecimal, with zeros in front up to `width` digits. -/
def upperHex (width n : Nat) : List Char := ((Nat.toDigits 16 n).map Char.toUpper).leftpad width '0'

/-- The value of an upper-case digit. -/
def digitValue? (c : Char) : Option Nat :=
  ['0', '1', '2', '3', '4', '5', '6', '7', '8', '9', 'A', 'B', 'C', 'D', 'E', 'F'].idxOf? c

/-- The number that digits stand for. -/
def readHex? (cs : List Char) : Option Nat := cs.foldlM (fun n c => (digitValue? c).map (16 * n + ·)) 0

/-- The byte that two digits stand for. -/
def readByte? (cs : List Char) : Option UInt8 := if cs.length = 2 then (readHex? cs).map UInt8.ofNat else none

theorem digitValue?_hexDigit {n : Nat} (h : n < 16) : digitValue? (hexDigit n) = some n := by
  have table : ∀ i : Fin 16, digitValue? (hexDigit i.val) = some i.val := by decide
  exact table ⟨n, h⟩

theorem toUpper_digitChar {n : Nat} (h : n < 16) : n.digitChar.toUpper = hexDigit n := by
  have table : ∀ i : Fin 16, i.val.digitChar.toUpper = hexDigit i.val := by decide
  exact table ⟨n, h⟩

theorem mem_hexDigits {width n : Nat} {c : Char} (h : c ∈ hexDigits width n) : ∃ d < 16, c = hexDigit d := by
  induction width generalizing n with
  | zero => cases h
  | succ width ih =>
    rw [hexDigits, List.mem_append, List.mem_singleton] at h
    rcases h with h | h
    · exact ih h
    · exact ⟨n % 16, Nat.mod_lt _ (by decide), h⟩

/-- Digits are neither blanks nor line feeds. -/
theorem visible_of_mem_hexDigits {width n : Nat} {c : Char} (h : c ∈ hexDigits width n) : c ≠ ' ' ∧ c ≠ '\n' := by
  have table : ∀ i : Fin 16, hexDigit i.val ≠ ' ' ∧ hexDigit i.val ≠ '\n' := by decide
  obtain ⟨d, small, rfl⟩ := mem_hexDigits h
  exact table ⟨d, small⟩

/-- **Digits read back as their number**, if there are enough of them. -/
theorem readHex?_hexDigits {width n : Nat} (h : n < Nat.pow 16 width) : readHex? (hexDigits width n) = some n := by
  induction width generalizing n with
  | zero =>
    have zero : n = 0 := Nat.lt_one_iff.mp h
    rw [zero]
    rfl
  | succ width ih =>
    have front : n / 16 < Nat.pow 16 width := Nat.div_lt_of_lt_mul (Nat.mul_comm .. ▸ h)
    have last : digitValue? (hexDigit (n % 16)) = some (n % 16) := digitValue?_hexDigit (Nat.mod_lt _ (by decide))
    have whole : 16 * (n / 16) + n % 16 = n := Nat.div_add_mod n 16
    have first := ih front
    unfold readHex? at first ⊢
    rw [hexDigits, List.foldlM_append, first]
    simp [last, whole]

theorem readByte?_hexByte (b : UInt8) : readByte? (hexByte b) = some b := by
  rw [readByte?, hexByte, length_hexDigits, if_pos rfl, readHex?_hexDigits b.toNat_lt]
  simp

theorem hexDigits_zero (width : Nat) : hexDigits width 0 = List.replicate width '0' := by
  induction width with
  | zero => rfl
  | succ width ih =>
    rw [hexDigits, ih, List.replicate_succ']
    rfl

theorem hexDigits_eq_upperHex {width n : Nat} (pos : 0 < width) (h : n < Nat.pow 16 width) :
    hexDigits width n = upperHex width n := by
  induction width generalizing n with
  | zero => cases pos
  | succ width ih =>
    by_cases small : n < 16
    · have front : n / 16 = 0 := Nat.div_eq_of_lt small
      rw [hexDigits, upperHex, Nat.toDigits_of_lt_base small, front, hexDigits_zero, Nat.mod_eq_of_lt small]
      simp [List.leftpad, toUpper_digitChar small]
    · have more : 0 < width := by
        refine Nat.pos_of_ne_zero fun none => small ?_
        rwa [none] at h
      have front : n / 16 < Nat.pow 16 width := Nat.div_lt_of_lt_mul (Nat.mul_comm .. ▸ h)
      have last := toUpper_digitChar (Nat.mod_lt n (by decide : 16 > 0))
      rw [hexDigits, ih more front, upperHex, upperHex, Nat.toDigits_of_base_le (by decide) (Nat.le_of_not_lt small)]
      simp [List.leftpad, last]

/-! ## Words and lines -/

/-- What stands between blanks. -/
def words (cs : List Char) : List (List Char) := (cs.splitOn ' ').filter (· ≠ [])

/-- The lines of a text, each of which a line feed ends. -/
def lines (text : String) : List (List Char) := (text.toList.splitOn '\n').dropLast

/-- Words split at every blank. -/
theorem words_append_blank (front back : List Char) : words (front ++ ' ' :: back) = words front ++ words back := by
  rw [words, List.splitOn_append_cons_self, List.filter_append]
  rfl

theorem words_of_not_mem {w : List Char} (nonempty : w ≠ []) (whole : ' ' ∉ w) : words w = [w] := by
  rw [words, List.splitOn_eq_singleton whole]
  simp [nonempty]

theorem words_replicate (n : Nat) : words (List.replicate n ' ') = [] := by
  induction n with
  | zero => rfl
  | succ n ih => exact (words_append_blank [] _).trans ih

theorem words_append_replicate (cs : List Char) (n : Nat) : words (cs ++ List.replicate n ' ') = words cs := by
  cases n with
  | zero => rw [List.replicate_zero, List.append_nil]
  | succ n => rw [List.replicate_succ, words_append_blank, words_replicate, List.append_nil]

/-- **Words that are parted by blanks read back.** -/
theorem words_intercalate {ws : List (List Char)} (h : ∀ w ∈ ws, w ≠ [] ∧ ' ' ∉ w) :
    words ([' '].intercalate ws) = ws := by
  induction ws with
  | nil => rfl
  | cons w ws ih =>
    obtain ⟨⟨nonempty, whole⟩, later⟩ := List.forall_mem_cons.mp h
    have one := words_of_not_mem nonempty whole
    cases ws with
    | nil => rwa [List.intercalate_singleton]
    | cons next ws =>
      rw [List.intercalate_cons_cons, List.append_assoc, List.singleton_append, words_append_blank, one, ih later]
      rfl

/-- **Lines that line feeds end read back.** -/
theorem lines_ofList {ls : List (List Char)} (h : ∀ l ∈ ls, '\n' ∉ l) :
    lines (String.ofList (ls.flatMap (· ++ ['\n']))) = ls := by
  rw [lines, String.toList_ofList]
  induction ls with
  | nil => rfl
  | cons l ls ih =>
    obtain ⟨whole, later⟩ := List.forall_mem_cons.mp h
    rw [List.flatMap_cons, List.append_assoc, List.singleton_append, List.splitOn_append_cons_self_of_not_mem whole,
      List.dropLast_cons_of_ne_nil (List.splitOn_ne_nil _ _), ih later]

end EtherChip.Text

/-!
# Byte strings and words

Registers and frames carry 16-bit words high byte first; save files carry words low byte first.
Bits travel over the serial lines most significant first, so `shiftIn` is the one step by
which a byte is assembled, and `bitsOf` lists the levels in the order in which they are sent.
-/
namespace EtherChip

abbrev Bytes := List UInt8

def highByte (w : UInt16) : UInt8 := UInt8.ofNat (w.toNat / 256)

def lowByte (w : UInt16) : UInt8 := UInt8.ofNat w.toNat

def wordOf (high low : UInt8) : UInt16 := UInt16.ofNat (high.toNat * 256 + low.toNat)

theorem toNat_wordOf (high low : UInt8) : (wordOf high low).toNat = high.toNat * 256 + low.toNat := by
  have := high.toNat_lt
  have := low.toNat_lt
  simp only [wordOf, UInt16.toNat_ofNat']
  omega

@[simp] theorem highByte_wordOf (high low : UInt8) : highByte (wordOf high low) = high := by
  have := low.toNat_lt
  have := high.toNat_lt
  rw [highByte, toNat_wordOf, ← UInt8.toNat_inj, UInt8.toNat_ofNat']
  omega

@[simp] theorem lowByte_wordOf (high low : UInt8) : lowByte (wordOf high low) = low := by
  have := low.toNat_lt
  rw [lowByte, toNat_wordOf, ← UInt8.toNat_inj, UInt8.toNat_ofNat']
  omega

@[simp] theorem wordOf_highByte_lowByte (w : UInt16) : wordOf (highByte w) (lowByte w) = w := by
  have := w.toNat_lt
  rw [← UInt16.toNat_inj, toNat_wordOf]
  simp only [highByte, lowByte, UInt8.toNat_ofNat']
  omega

namespace Bytes

/-- The `width` low base-256 digits of a number, least significant first. -/
def littleEndian : (width value : Nat) → Bytes
  | 0, _ => []
  | width + 1, value => UInt8.ofNat value :: littleEndian width (value / 256)

/-- The number whose base-256 digits are given, least significant first. -/
def ofLittleEndian : Bytes → Nat
  | [] => 0
  | b :: bs => b.toNat + 256 * ofLittleEndian bs

/-- The `width` low base-256 digits of a number, most significant first. -/
def bigEndian (width value : Nat) : Bytes := (littleEndian width value).reverse

/-- The number whose base-256 digits are given, most significant first. -/
def ofBigEndian (bs : Bytes) : Nat := ofLittleEndian bs.reverse

@[simp] theorem length_littleEndian (width value : Nat) : (littleEndian width value).length = width := by
  induction width generalizing value with
  | zero => rfl
  | succ width ih => simp [littleEndian, ih]

/-- Digits that were written read back as the number modulo the count of numbers of that width. -/
theorem ofLittleEndian_littleEndian (width value : Nat) :
    ofLittleEndian (littleEndian width value) = value % Nat.pow 256 width := by
  induction width generalizing value with
  | zero => exact (Nat.mod_one value).symm
  | succ width ih =>
    have digit : (UInt8.ofNat value).toNat = value % 256 := UInt8.toNat_ofNat'
    have next : Nat.pow 256 (width + 1) = 256 * Nat.pow 256 width := Nat.mul_comm _ _
    rw [littleEndian, ofLittleEndian, ih, digit, next, Nat.mod_mul]

end Bytes

/-- One more bit enters at the low end of a byte and the top bit falls out. -/
def shiftIn (acc : UInt8) (level : Bool) : UInt8 := acc * 2 + (if level then 1 else 0)

/-- Levels of a byte's bits, most significant first. -/
def bitsOf (b : UInt8) : List Bool := [7, 6, 5, 4, 3, 2, 1, 0].map b.toNat.testBit

/-- The byte assembled from levels, most significant first. -/
def ofBits (levels : List Bool) : UInt8 := levels.foldl shiftIn 0

end EtherChip

import EtherChip.Bytes

/-!
# Ring memory

Each socket has a transmit and a receive ring of 2048 bytes. A ring stores bytes only; where they
start and end is held by the socket's registers. Offsets are residues modulo the ring's size, so
no offset can lie outside. Bulk copies move at most one ring's worth of bytes, as one run up to
the end of the ring and a second run from its start.
-/
namespace EtherChip

abbrev ringSize : Nat := 2048

abbrev RingOffset := Fin ringSize

namespace RingOffset

/-- The position that a number names: only its residue counts. -/
def ofNat (n : Nat) : RingOffset := ⟨n % ringSize, Nat.mod_lt _ (by decide)⟩

/-- The position that a register word names. -/
def ofWord (w : UInt16) : RingOffset := ofNat w.toNat

/-- The position `n` bytes further on. -/
def advance (o : RingOffset) (n : Nat) : RingOffset := ofNat (o.val + n)

def toWord (o : RingOffset) : UInt16 := UInt16.ofNat o.val

/-- Bytes from one position forward to another, around the end of the ring if need be. -/
def distance (start stop : RingOffset) : Nat := (stop.val + ringSize - start.val) % ringSize

theorem distance_lt (start stop : RingOffset) : distance start stop < ringSize :=
  Nat.mod_lt _ (by decide)

@[simp] theorem val_ofNat (n : Nat) : (ofNat n).val = n % ringSize := rfl

@[simp] theorem val_advance (o : RingOffset) (n : Nat) : (o.advance n).val = (o.val + n) % ringSize := rfl

/-- Going forward by the distance arrives at the other position. -/
theorem advance_distance (start stop : RingOffset) : start.advance (distance start stop) = stop := by
  have := start.isLt
  have := stop.isLt
  apply Fin.ext
  simp only [val_advance, distance, ringSize] at *
  omega

/-- The distance to a position `n` bytes further on is `n`, up to whole turns. -/
theorem distance_advance (start : RingOffset) (n : Nat) :
    distance start (start.advance n) = n % ringSize := by
  have := start.isLt
  simp only [val_advance, distance, ringSize] at *
  omega

theorem ofWord_toWord (o : RingOffset) : ofWord o.toWord = o := by
  have := o.isLt
  apply Fin.ext
  simp only [ofWord, toWord, val_ofNat, ringSize, UInt16.toNat_ofNat'] at *
  omega

end RingOffset

/-- Writes bytes to consecutive cells from `start` on; what passes the last cell is lost. -/
def overlay {n : Nat} (cells : Vector UInt8 n) (start : Nat) : Bytes → Vector UInt8 n
  | [] => cells
  | b :: bs => overlay (cells.setIfInBounds start b) (start + 1) bs

structure Ring where
  cells : Vector UInt8 ringSize
  deriving DecidableEq

namespace Ring

def empty : Ring := ⟨Vector.replicate ringSize 0⟩

instance : Inhabited Ring := ⟨empty⟩

def get (r : Ring) (o : RingOffset) : UInt8 := r.cells[o]

def set (r : Ring) (o : RingOffset) (value : UInt8) : Ring := ⟨r.cells.set o.val value o.isLt⟩

/-- All bytes from the first cell to the last. -/
def toBytes (r : Ring) : Bytes := r.cells.toList

@[simp] theorem get_set_self (r : Ring) (o : RingOffset) (value : UInt8) : (r.set o value).get o = value := by
  simp [get, set]

theorem get_set_of_ne (r : Ring) {o p : RingOffset} (value : UInt8) (h : p ≠ o) :
    (r.set o value).get p = r.get p := by
  have apart : o.val ≠ p.val := fun e => h (Fin.ext e.symm)
  simp [get, set, apart]

@[simp] theorem length_toBytes (r : Ring) : r.toBytes.length = ringSize := by
  simp [toBytes]

/-- Copies out `len` bytes from `start` on, at most one ring's worth. -/
def copyOut (r : Ring) (start : RingOffset) (len : Nat) : Bytes :=
  let len := min len ringSize
  let run := min len (ringSize - start.val)
  (r.cells.toArray.extract start.val (start.val + run)).toList ++
    (r.cells.toArray.extract 0 (len - run)).toList

/-- Copies bytes in from `start` on, at most one ring's worth of them, and gives the position
after the last one. -/
def copyIn (r : Ring) (start : RingOffset) (data : Bytes) : Ring × RingOffset :=
  let data := data.take ringSize
  let run := min data.length (ringSize - start.val)
  let wrapped := overlay (overlay r.cells start.val (data.take run)) 0 (data.drop run)
  (⟨wrapped⟩, start.advance data.length)

/-- A ring with saved contents: short ones are filled up with zeros, surplus bytes are ignored. -/
def ofBytes (data : Bytes) : Ring := ⟨overlay empty.cells 0 (data.take ringSize)⟩

end Ring

end EtherChip

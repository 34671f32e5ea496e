import EtherChip.Proofs.SaveState.Layout
import EtherChip.SaveState.File

/-!
# Stored streams

A compressed stream may hold its bytes as they are, in stored blocks of at most 65535 bytes. A library
that writes nothing but these (`Compression.stored`) is the simplest one by which what has been compressed
comes back.
-/
namespace EtherChip

namespace Stored

/-- Most bytes in one block. -/
def maxBlock : Nat := 65535

/-- One block: whether it is the last one, its length and the complement of that, and its bytes. -/
def block (last : Bool) (data : Bytes) : Bytes :=
  (if last then 1 else 0) :: (Bytes.littleEndian 2 data.length ++ Bytes.littleEndian 2 (0xFFFF - data.length) ++ data)

/-- The stream of stored blocks for some bytes. -/
def compress (data : Bytes) : Bytes :=
  if data.length ≤ maxBlock then block true data
  else block false (data.take maxBlock) ++ compress (data.drop maxBlock)
termination_by data.length
decreasing_by
  simp only [List.length_drop, maxBlock] at *
  omega

/-- The bytes of a stream of stored blocks. -/
def inflate (stream : Bytes) : Except String Bytes :=
  match stream with
  | [] => .error "end of stream"
  | kind :: header =>
    let len := Bytes.ofLittleEndian (header.take 2)
    let data := header.drop 4
    if len + Bytes.ofLittleEndian ((header.drop 2).take 2) ≠ 0xFFFF ∨ data.length < len then .error "damaged block"
    else if kind = 1 then .ok (data.take len)
    else if kind = 0 then (inflate (data.drop len)).map (data.take len ++ ·)
    else .error "not a stored block"
termination_by stream.length
decreasing_by
  simp only [List.length_drop, List.length_cons]
  omega

/-- A block gives its bytes, and those of the blocks behind it if it is not the last. -/
theorem inflate_block {data : Bytes} (fits : data.length ≤ maxBlock) (last : Bool) (rest : Bytes) :
    inflate (block last data ++ rest) = if last then .ok data else (inflate rest).map (data ++ ·) := by
  have words : Nat.pow 256 2 = 0x10000 := rfl
  simp only [maxBlock] at fits
  have len : Bytes.ofLittleEndian (Bytes.littleEndian 2 data.length) = data.length :=
    Bytes.ofLittleEndian_littleEndian_of_lt (by rw [words]; omega)
  have complement : Bytes.ofLittleEndian (Bytes.littleEndian 2 (0xFFFF - data.length)) = 0xFFFF - data.length :=
    Bytes.ofLittleEndian_littleEndian_of_lt (by rw [words]; omega)
  have two (n : Nat) : (Bytes.littleEndian 2 n).length = 2 := Bytes.length_littleEndian 2 n
  have whole : ¬(data.length + (0xFFFF - data.length) ≠ 0xFFFF ∨ (data ++ rest).length < data.length) := by
    rw [List.length_append]
    omega
  have shape : block last data ++ rest = (if last then 1 else 0) ::
      (Bytes.littleEndian 2 data.length ++ (Bytes.littleEndian 2 (0xFFFF - data.length) ++ (data ++ rest))) := by
    simp only [block, List.cons_append, List.append_assoc]
  have behind : (Bytes.littleEndian 2 data.length ++
      (Bytes.littleEndian 2 (0xFFFF - data.length) ++ (data ++ rest))).drop 4 = data ++ rest := by
    rw [← List.append_assoc]
    exact List.drop_left' (by rw [List.length_append, two, two])
  rw [shape, inflate]
  simp only [behind, List.take_left' (two _), List.drop_left' (two _), len, complement, if_neg whole, List.take_left,
    List.drop_left]
  cases last with
  | true => rfl
  | false => rfl

theorem inflate_compress (data : Bytes) : inflate (compress data) = .ok data := by
  induction data using compress.induct with
  | case1 data fits =>
    have read := inflate_block fits true []
    rw [List.append_nil] at read
    rw [compress, if_pos fits, read]
    rfl
  | case2 data long ih =>
    have full : (data.take maxBlock).length ≤ maxBlock := List.length_take_le _ _
    rw [compress, if_neg long, inflate_block full, ih]
    exact congrArg Except.ok (List.take_append_drop maxBlock data)

end Stored

/-- A library that compresses nothing: all that it writes are stored blocks. -/
def Compression.stored : Compression where
  compress := Stored.compress
  inflate := Stored.inflate

theorem Compression.inverts_stored : stored.Inverts := Stored.inflate_compress

end EtherChip

import EtherChip.Proofs.Framing.Selection

/-!
# The grammar of frames

A stream of bytes in one selection is a row of pieces: bytes that are no opcode where one is expected,
and whole frames. At its end a frame may have been begun. Every stream is of this form in exactly one way
(`parse_eq_iff`), whatever its address and data bytes look like, and the decoder of the W5100 asks for
what the pieces ask for, each at its byte (`frames_decoded`). Between pieces, and only there, the decoder
is idle, so the proof goes piece by piece (`decode_piece`).
-/
namespace EtherChip

/-- The byte with which a frame starts. -/
def opcode (write : Bool) : UInt8 := if write then writeOpcode else readOpcode

/-- No frame starts with this byte. -/
def NoOpcode (b : UInt8) : Prop := b ≠ writeOpcode ∧ b ≠ readOpcode

instance : DecidablePred NoOpcode := fun _ => inferInstanceAs (Decidable (_ ∧ _))

/-- The flat address that two bytes of a frame name. -/
def frameAddr (high low : UInt8) : UInt32 := UInt32.ofNat (high.toNat * 256 + low.toNat)

inductive FramePiece where
  /-- A byte that is no opcode, where one is expected. -/
  | skipped (b : UInt8) (other : NoOpcode b)
  | frame (write : Bool) (high low data : UInt8)
  deriving DecidableEq

/-- A frame of which the last bytes are missing. -/
inductive FrameStart where
  | opcode (write : Bool)
  | addrHigh (write : Bool) (high : UInt8)
  | addrLow (write : Bool) (high low : UInt8)
  deriving DecidableEq

structure FrameStream where
  pieces : List FramePiece
  /-- The frame in progress at the end of the stream. -/
  begun : Option FrameStart
  deriving DecidableEq

/-! ## Bytes and operations -/

namespace FramePiece

def bytes : FramePiece → Bytes
  | skipped b _ => [b]
  | frame write high low data => [EtherChip.opcode write, high, low, data]

/-- What a piece asks for, one entry for each byte: a write at the fourth byte of its frame, and a read
at the third. -/
def operations : FramePiece → List (Option MemoryOp)
  | skipped _ _ => [none]
  | frame true high low data => [none, none, none, some (.write (frameAddr high low) data)]
  | frame false high low _ => [none, none, some (.read (frameAddr high low)), none]

end FramePiece

namespace FrameStart

def bytes : FrameStart → Bytes
  | opcode write => [EtherChip.opcode write]
  | addrHigh write high => [EtherChip.opcode write, high]
  | addrLow write high low => [EtherChip.opcode write, high, low]

def operations : FrameStart → List (Option MemoryOp)
  | opcode _ => [none]
  | addrHigh _ _ => [none, none]
  | addrLow true _ _ => [none, none, none]
  | addrLow false high low => [none, none, some (.read (frameAddr high low))]

end FrameStart

namespace FrameStream

def bytes (s : FrameStream) : Bytes := s.pieces.flatMap FramePiece.bytes ++ (s.begun.map FrameStart.bytes).getD []

def operations (s : FrameStream) : List (Option MemoryOp) :=
  s.pieces.flatMap FramePiece.operations ++ (s.begun.map FrameStart.operations).getD []

/-- One more piece in front. -/
def cons (piece : FramePiece) (s : FrameStream) : FrameStream := { s with pieces := piece :: s.pieces }

/-- Reads a stream: bytes that are no opcode are skipped, and an opcode is followed by the rest of its
frame, as far as the stream goes. -/
def parse : Bytes → FrameStream
  | [] => ⟨[], none⟩
  | b :: rest =>
    if other : NoOpcode b then cons (.skipped b other) (parse rest)
    else
      let write := decide (b = writeOpcode)
      match rest with
      | [] => ⟨[], some (.opcode write)⟩
      | [high] => ⟨[], some (.addrHigh write high)⟩
      | [high, low] => ⟨[], some (.addrLow write high low)⟩
      | high :: low :: data :: rest => cons (.frame write high low data) (parse rest)

theorem bytes_cons (piece : FramePiece) (s : FrameStream) : (cons piece s).bytes = piece.bytes ++ s.bytes := by
  rw [bytes, cons, List.flatMap_cons, List.append_assoc, bytes]

end FrameStream

/-! ## One reading for every stream -/

theorem opcode_of_not_noOpcode {b : UInt8} (h : ¬NoOpcode b) : opcode (decide (b = writeOpcode)) = b := by
  by_cases write : b = writeOpcode
  · rw [decide_eq_true write, write]
    rfl
  · have read : b = readOpcode := by
      rw [NoOpcode, not_and_or, not_not, not_not] at h
      exact h.resolve_left write
    rw [decide_eq_false write, read]
    rfl

theorem not_noOpcode_opcode (write : Bool) : ¬NoOpcode (opcode write) := by
  cases write <;> decide

theorem opcode_eq_writeOpcode (write : Bool) : decide (opcode write = writeOpcode) = write := by
  cases write <;> decide

namespace FrameStream

/-- Nothing of a stream is lost or added. -/
theorem bytes_parse (bytes : Bytes) : (parse bytes).bytes = bytes := by
  fun_induction parse bytes with
  | case1 => rfl
  | case2 b rest other ih => rw [bytes_cons, ih]; rfl
  | case3 b other write | case4 b other write high | case5 b other write high low =>
    exact congrArg (· :: _) (opcode_of_not_noOpcode other)
  | case6 b other write high low data rest ih =>
    rw [bytes_cons, ih]
    exact congrArg (· :: _) (opcode_of_not_noOpcode other)

theorem parse_piece (piece : FramePiece) (rest : Bytes) : parse (piece.bytes ++ rest) = cons piece (parse rest) := by
  cases piece with
  | skipped b other =>
    show parse (b :: rest) = _
    rw [parse, dif_pos other]
  | frame write high low data =>
    show parse (opcode write :: high :: low :: data :: rest) = _
    rw [parse, dif_neg (not_noOpcode_opcode write)]
    simp only [opcode_eq_writeOpcode]

theorem parse_start (start : FrameStart) : parse start.bytes = ⟨[], some start⟩ := by
  cases start with
  | opcode write | addrHigh write high | addrLow write high low =>
    rw [FrameStart.bytes, parse, dif_neg (not_noOpcode_opcode write)]
    simp only [opcode_eq_writeOpcode]

/-- What pieces and the start of a frame are made of reads as these. -/
theorem parse_bytes (s : FrameStream) : parse s.bytes = s := by
  obtain ⟨pieces, begun⟩ := s
  induction pieces with
  | nil =>
    cases begun with
    | none => rfl
    | some start => exact parse_start start
  | cons piece pieces ih =>
    have front : (⟨piece :: pieces, begun⟩ : FrameStream) = cons piece ⟨pieces, begun⟩ := rfl
    rw [front, bytes_cons, parse_piece, ih]

/-- **Every stream has exactly one reading.** -/
theorem parse_eq_iff {bytes : Bytes} {s : FrameStream} : parse bytes = s ↔ s.bytes = bytes :=
  ⟨fun h => h ▸ bytes_parse bytes, fun h => h ▸ parse_bytes s⟩

/-- Addresses and data may look like opcodes. -/
example : parse [0x55, 0xF0, 0x0F, 0xF0, 0xF0, 0x0F, 0x0F] =
    ⟨[.skipped 0x55 (by decide), .frame true 0x0F 0xF0 0xF0], some (.addrHigh false 0x0F)⟩ := rfl

end FrameStream

/-! ## What the decoder makes of a stream -/

theorem arriving_append (bytes later : Bytes) : arriving (bytes ++ later) = arriving bytes ++ arriving later :=
  List.map_append

theorem toUInt32_wordOf (high low : UInt8) : (wordOf high low).toUInt32 = frameAddr high low := by
  have := high.toNat_lt
  have := low.toNat_lt
  rw [← UInt32.toNat_inj, UInt16.toNat_toUInt32, toNat_wordOf, frameAddr, UInt32.toNat_ofNat']
  omega

/-- A whole piece asks for its operations and leaves the decoder idle. -/
theorem decode_piece (piece : FramePiece) :
    (Decoder.idle .w5100).operations (arriving piece.bytes) = piece.operations ∧
      (Decoder.idle .w5100).after (arriving piece.bytes) = .idle .w5100 := by
  cases piece with
  | skipped b other =>
    have skipped : (Decoder.frame .idle).feed b = (none, .frame .idle) := by
      rw [Decoder.feed, FrameState.feed, if_neg other.1, if_neg other.2]
    exact ⟨congrArg (fun fed : Option MemoryOp × Decoder => [fed.1]) skipped, congrArg Prod.snd skipped⟩
  | frame write high low data =>
    have addr := toUInt32_wordOf high low
    cases write with
    | true => exact ⟨by rw [FramePiece.operations, ← addr]; rfl, rfl⟩
    | false => exact ⟨by rw [FramePiece.operations, ← addr]; rfl, rfl⟩

theorem decode_pieces (pieces : List FramePiece) :
    (Decoder.idle .w5100).operations (arriving (pieces.flatMap FramePiece.bytes)) =
        pieces.flatMap FramePiece.operations ∧
      (Decoder.idle .w5100).after (arriving (pieces.flatMap FramePiece.bytes)) = .idle .w5100 := by
  induction pieces with
  | nil => exact ⟨rfl, rfl⟩
  | cons piece pieces ih =>
    obtain ⟨operations, after⟩ := decode_piece piece
    rw [List.flatMap_cons, List.flatMap_cons, arriving_append, Decoder.operations_append, Decoder.after_append,
      operations, after, ih.1]
    exact ⟨rfl, ih.2⟩

/-- The start of a frame asks for its operations, and the decoder waits for the rest. -/
theorem decode_start (start : FrameStart) :
    (Decoder.idle .w5100).operations (arriving start.bytes) = start.operations ∧
      ((Decoder.idle .w5100).after (arriving start.bytes)).isIdle = false := by
  cases start with
  | opcode write | addrHigh write high => cases write <;> exact ⟨rfl, rfl⟩
  | addrLow write high low =>
    cases write with
    | true => exact ⟨rfl, rfl⟩
    | false => exact ⟨by rw [FrameStart.operations, ← toUInt32_wordOf]; rfl, rfl⟩

theorem decode_stream (s : FrameStream) :
    (Decoder.idle .w5100).operations (arriving s.bytes) = s.operations ∧
      (((Decoder.idle .w5100).after (arriving s.bytes)).isIdle = true ↔ s.begun = none) := by
  obtain ⟨pieces, begun⟩ := s
  obtain ⟨operations, after⟩ := decode_pieces pieces
  rw [FrameStream.bytes, FrameStream.operations, arriving_append, Decoder.operations_append, Decoder.after_append,
    operations, after]
  cases begun with
  | none => exact ⟨rfl, iff_of_true rfl rfl⟩
  | some start =>
    obtain ⟨operations, waiting⟩ := decode_start start
    exact ⟨congrArg _ operations, iff_of_false (ne_true_of_eq_false waiting) nofun⟩

/-- A release asks for nothing, whatever frame is in progress, and an opcode is expected next. -/
theorem release_frame (bytes : Bytes) :
    ((Decoder.idle .w5100).after (arriving bytes)).deselect = (none, .idle .w5100) := by
  have next : ((Decoder.idle .w5100).after (arriving bytes)).deselect.2 = .frame .idle :=
    Decoder.deselect_after _ _
  generalize (Decoder.idle .w5100).after (arriving bytes) = d at next
  cases d with
  | frame s => rfl
  | burst s => cases next

theorem operations_selection_frame (bytes : Bytes) :
    (Decoder.idle .w5100).operations (selection bytes) = (FrameStream.parse bytes).operations ++ [none] := by
  have arrived := (decode_stream (FrameStream.parse bytes)).1
  rw [FrameStream.bytes_parse] at arrived
  rw [selection, Decoder.operations_append, arrived]
  exact congrArg (fun released : Option MemoryOp × Decoder => _ ++ [released.1]) (release_frame bytes)

/-- **The decoder of the W5100 follows the grammar of frames.** Every stream of bytes within a selection
has exactly one reading. The decoder asks for what it says, each operation at its byte, and is idle
exactly if the stream consists of whole pieces. A release asks for nothing and makes the decoder idle
whatever has been begun, so in any row of selections each stream is read on its own. -/
theorem frames_decoded :
    (∀ (bytes : Bytes) (s : FrameStream), FrameStream.parse bytes = s ↔ s.bytes = bytes) ∧
    (∀ bytes : Bytes,
      let d := (Decoder.idle .w5100).after (arriving bytes)
      (Decoder.idle .w5100).operations (arriving bytes) = (FrameStream.parse bytes).operations ∧
      (d.isIdle = true ↔ ∃ pieces : List FramePiece, pieces.flatMap FramePiece.bytes = bytes) ∧
      d.deselect = (none, .idle .w5100)) ∧
    ∀ streams : List Bytes,
      (Decoder.idle .w5100).operations (streams.flatMap selection) =
        streams.flatMap fun bytes => (FrameStream.parse bytes).operations ++ [none] := by
  refine ⟨fun _ _ => FrameStream.parse_eq_iff, fun bytes => ?_, fun streams => ?_⟩
  · obtain ⟨operations, idle⟩ := decode_stream (FrameStream.parse bytes)
    rw [FrameStream.bytes_parse] at operations idle
    refine ⟨operations, idle.trans ⟨fun whole => ?_, ?_⟩, release_frame bytes⟩
    · have all := FrameStream.bytes_parse bytes
      rw [FrameStream.bytes, whole] at all
      exact ⟨_, (List.append_nil _).symm.trans all⟩
    · rintro ⟨pieces, rfl⟩
      have reading : FrameStream.parse (pieces.flatMap FramePiece.bytes) = ⟨pieces, none⟩ :=
        FrameStream.parse_eq_iff.mpr (List.append_nil _)
      rw [reading]
  · rw [Decoder.operations_selections]
    exact congrArg streams.flatMap (funext operations_selection_frame)

end EtherChip

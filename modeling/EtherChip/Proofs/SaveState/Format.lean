import EtherChip.Proofs.SaveState.Stored

/-!
# The format of save files

`Holds` says which state a file holds, and `Fault` what can be wrong with one, each fault with its
place in the order of the file. Every file either holds exactly one state or has a first fault, and
`decode` finds out which (`decode_spec`). All of this is relative to what the compressed streams stand for,
about which nothing is assumed; only that an encoded state comes back needs that the compression `Inverts`.
-/
namespace EtherChip

theorem ChipModel.eq_of_code_eq {m m' : ChipModel} (same : m.code = m'.code) : m = m' :=
  Option.some.inj (by rw [← ofCode?_code m, same, ofCode?_code])

namespace SaveFile

/-! ## Files that hold a state -/

/-- A file starts with the header of a model. -/
structure HasHeader (file : Bytes) (model : ChipModel) : Prop where
  long : headerSize ≤ file.length
  magic : file.take 4 = magic
  version : (file.drop 4).take 4 = Bytes.littleEndian 4 saveFormatVersion
  code : file[8]? = some model.code

/-- A file holds a state of a model. Payload bytes after the last field do not matter. -/
structure Holds (z : Compression) (file : Bytes) (model : ChipModel) (s : SaveState) : Prop
    extends HasHeader file model where
  payload : ∃ rest, z.inflate (file.drop headerSize) = .ok (s.toBytes ++ rest)
  fits : s.Fits

/-- What can be wrong with a file that is to hold a state of a model: the place of the fault in the
order of the file, and the error that names it. -/
inductive Fault (z : Compression) (file : Bytes) (expected : ChipModel) : Nat → ChipError → Prop where
  | short (h : file.length < headerSize) : Fault z file expected 0 .truncated
  | magic (h : file.take 4 ≠ magic) : Fault z file expected 1 .badMagic
  | version (h : (file.drop 4).take 4 ≠ Bytes.littleEndian 4 saveFormatVersion) :
    Fault z file expected 2 (.unsupportedVersion (Bytes.ofLittleEndian ((file.drop 4).take 4)))
  | code (h : file[8]? ≠ some expected.code) :
    Fault z file expected 3 (.modelMismatch (file[8]?.bind ChipModel.ofCode?) expected)
  | stream {reason : String} (h : z.inflate (file.drop headerSize) = .error reason) :
    Fault z file expected 4 (.decompress reason)
  | payload {payload : Bytes} (inflated : z.inflate (file.drop headerSize) = .ok payload)
    (h : ∀ (s : SaveState) (rest : Bytes), s.Fits → payload ≠ s.toBytes ++ rest) :
    Fault z file expected 5 .payloadTooShort

/-- A file has no fault before a place. -/
def SoundUpTo (z : Compression) (file : Bytes) (expected : ChipModel) (place : Nat) : Prop :=
  ∀ earlier < place, ∀ e, ¬Fault z file expected earlier e

/-- The fault of a file that comes before all others. -/
def FirstFault (z : Compression) (file : Bytes) (expected : ChipModel) (e : ChipError) : Prop :=
  ∃ place, Fault z file expected place e ∧ SoundUpTo z file expected place

variable {z : Compression} {file : Bytes} {model : ChipModel} {s s' : SaveState} {e e' : ChipError}

/-- A file holds one state at most. -/
theorem Holds.eq (h : Holds z file model s) (h' : Holds z file model s') : s = s' := by
  obtain ⟨rest, inflated⟩ := h.payload
  obtain ⟨rest', inflated'⟩ := h'.payload
  rw [inflated] at inflated'
  exact (SaveState.eq_of_toBytes_append h.fits h'.fits (Except.ok.inj inflated')).1

theorem HasHeader.soundUpTo (h : HasHeader file model) : SoundUpTo z file model 4 := by
  rintro place early e (short | wrong | wrong | wrong | _)
  · exact absurd h.long (Nat.not_le.mpr short)
  · exact wrong h.magic
  · exact wrong h.version
  · exact wrong h.code
  all_goals omega

theorem Holds.not_fault (h : Holds z file model s) (place : Nat) : ¬Fault z file model place e := by
  rintro (short | wrong | wrong | wrong | invalid | ⟨inflated, unreadable⟩)
  · exact absurd h.long (Nat.not_le.mpr short)
  · exact wrong h.magic
  · exact wrong h.version
  · exact wrong h.code
  · obtain ⟨rest, inflated⟩ := h.payload
    cases inflated.symm.trans invalid
  · obtain ⟨rest, inflated'⟩ := h.payload
    exact unreadable s rest h.fits (Except.ok.inj (inflated.symm.trans inflated'))

theorem Fault.eq {place : Nat} (h : Fault z file model place e) (h' : Fault z file model place e') : e = e' := by
  cases h with
  | stream invalid =>
    cases h' with
    | stream invalid' => rw [Except.error.inj (invalid.symm.trans invalid')]
  | short | magic | version | code | payload =>
    cases h'
    rfl

theorem FirstFault.eq (h : FirstFault z file model e) (h' : FirstFault z file model e') : e = e' := by
  obtain ⟨place, fault, first⟩ := h
  obtain ⟨place', fault', first'⟩ := h'
  obtain less | rfl | more := Nat.lt_trichotomy place place'
  · exact absurd fault (first' place less e)
  · exact fault.eq fault'
  · exact absurd fault' (first place' more e')

theorem SoundUpTo.succ {place : Nat} (sound : SoundUpTo z file model place)
    (here : ∀ e, ¬Fault z file model place e) : SoundUpTo z file model (place + 1) := by
  intro earlier before
  obtain before | rfl := Nat.lt_succ_iff_lt_or_eq.mp before
  · exact sound earlier before
  · exact here

/-! ## Decoding -/

theorem version_eq_iff (long : headerSize ≤ file.length) :
    Bytes.ofLittleEndian ((file.drop 4).take 4) = saveFormatVersion ↔
      (file.drop 4).take 4 = Bytes.littleEndian 4 saveFormatVersion := by
  have four : ((file.drop 4).take 4).length = 4 := by
    simp only [headerSize] at long
    simp only [List.length_take, List.length_drop]
    omega
  have digits := Bytes.littleEndian_ofLittleEndian ((file.drop 4).take 4)
  rw [four] at digits
  constructor
  · intro same
    rw [← same, digits]
  · intro same
    rw [same]
    rfl

theorem code_eq (long : headerSize ≤ file.length) : file[8]? = some ((file.drop 8).headD 0) := by
  obtain ⟨b, same⟩ : ∃ b, file[8]? = some b := ⟨_, List.getElem?_eq_getElem long⟩
  rw [List.headD_eq_head?_getD, List.head?_drop, same, Option.getD_some]

/-- Behind a header it is the compressed stream that decides. -/
theorem decode_of_hasHeader (h : HasHeader file model) :
    decode z file model =
      match z.inflate (file.drop headerSize) with
      | .error reason => .error (.decompress reason)
      | .ok payload =>
        match SaveState.read? payload with
        | none => .error .payloadTooShort
        | some (s, _) => .ok s := by
  have version := (version_eq_iff h.long).mpr h.version
  have code := (code_eq h.long).symm.trans h.code
  rw [decode, if_neg (Nat.not_lt.mpr h.long), if_neg (not_not_intro h.magic)]
  exact (if_neg (not_not_intro version)).trans (if_neg (not_not_intro (Option.some.inj code)))

/-- Another header is refused because of its first fault. -/
theorem decode_of_not_hasHeader (faulty : ¬HasHeader file model) :
    ∃ e, decode z file model = .error e ∧ FirstFault z file model e := by
  have sound : SoundUpTo z file model 0 := fun _ early => absurd early (Nat.not_lt_zero _)
  by_cases short : file.length < headerSize
  · exact ⟨_, by rw [decode, if_pos short], 0, .short short, sound⟩
  have long := Nat.not_lt.mp short
  replace sound := sound.succ fun | _, .short h => short h
  by_cases wrong : file.take 4 ≠ magic
  · exact ⟨_, by rw [decode, if_neg short, if_pos wrong], 1, .magic wrong, sound⟩
  replace sound := sound.succ fun | _, .magic h => wrong h
  by_cases other : Bytes.ofLittleEndian ((file.drop 4).take 4) ≠ saveFormatVersion
  · refine ⟨_, ?_, 2, .version (mt (version_eq_iff long).mpr other), sound⟩
    rw [decode, if_neg short, if_neg wrong]
    dsimp only
    rw [if_pos other]
  have version := (version_eq_iff long).mp (Decidable.not_not.mp other)
  replace sound := sound.succ fun | _, .version h => h version
  have code := code_eq long
  by_cases foreign : (file.drop 8).headD 0 ≠ model.code
  · refine ⟨_, ?_, 3, .code (by rw [code]; exact mt Option.some.inj foreign), sound⟩
    rw [decode, if_neg short, if_neg wrong]
    dsimp only
    rw [if_neg other, if_pos foreign, code, Option.bind_some]
  rw [Decidable.not_not.mp foreign] at code
  exact absurd ⟨long, Decidable.not_not.mp wrong, version, code⟩ faulty

/-- A file that is decoded holds the state that comes out, and one that is refused has the fault that
is named before all others. -/
theorem decode_spec (z : Compression) (file : Bytes) (model : ChipModel) :
    (∃ s, decode z file model = .ok s ∧ Holds z file model s) ∨
      ∃ e, decode z file model = .error e ∧ FirstFault z file model e := by
  obtain other | header := (Classical.em (HasHeader file model)).symm
  · exact .inr (decode_of_not_hasHeader other)
  have sound : SoundUpTo z file model 4 := header.soundUpTo
  rw [decode_of_hasHeader header]
  cases inflated : z.inflate (file.drop headerSize) with
  | error reason => exact .inr ⟨_, rfl, 4, .stream inflated, sound⟩
  | ok payload =>
    replace sound := sound.succ fun | _, .stream h => nomatch inflated.symm.trans h
    dsimp only
    cases read : SaveState.read? payload with
    | none =>
      refine .inr ⟨_, rfl, 5, .payload inflated fun s rest fits same => ?_, sound⟩
      rw [SaveState.read?_eq_some_iff.mpr ⟨fits, same⟩] at read
      cases read
    | some found =>
      obtain ⟨s, rest⟩ := found
      obtain ⟨fits, rfl⟩ := SaveState.read?_eq_some_iff.mp read
      exact .inl ⟨s, rfl, header, ⟨rest, inflated⟩, fits⟩

theorem decode_eq_ok_iff : decode z file model = .ok s ↔ Holds z file model s := by
  obtain ⟨found, decoded, holds⟩ | ⟨e, decoded, place, fault, -⟩ := decode_spec z file model
  · rw [decoded]
    exact ⟨fun h => Except.ok.inj h ▸ holds, fun h => congrArg _ (holds.eq h)⟩
  · rw [decoded]
    exact ⟨nofun, fun h => absurd fault (h.not_fault place)⟩

theorem decode_eq_error_iff : decode z file model = .error e ↔ FirstFault z file model e := by
  obtain ⟨found, decoded, holds⟩ | ⟨found, decoded, first⟩ := decode_spec z file model
  · rw [decoded]
    exact ⟨nofun, fun ⟨place, fault, _⟩ => absurd fault (holds.not_fault place)⟩
  · rw [decoded]
    exact ⟨fun h => Except.error.inj h ▸ first, fun h => congrArg _ (first.eq h)⟩

/-! ## Encoding -/

variable {stream rest : Bytes}

theorem drop_header_append : (header model ++ stream).drop headerSize = stream :=
  List.drop_left' (by cases model <;> rfl)

theorem hasHeader_append : HasHeader (header model ++ stream) model where
  long := by
    rw [List.length_append]
    exact Nat.le_add_right_of_le (by cases model <;> decide)
  magic := rfl
  version := rfl
  code := rfl

theorem decode_header_append (fits : s.Fits) (inflated : z.inflate stream = .ok (s.toBytes ++ rest)) :
    decode z (header model ++ stream) model = .ok s :=
  decode_eq_ok_iff.mpr { hasHeader_append with payload := ⟨rest, by rw [drop_header_append, inflated]⟩, fits := fits }

/-- An encoded state is decoded again. -/
theorem decode_encode (inverts : z.Inverts) (fits : s.Fits) : decode z (encode z s model) model = .ok s :=
  decode_header_append fits (by rw [inverts, List.append_nil])

/-- A payload that ends before its last field is refused. -/
theorem decode_cut_payload (fits : s.Fits) {front missing : Bytes} (whole : s.toBytes = front ++ missing)
    (more : missing ≠ []) (inflated : z.inflate stream = .ok front) :
    decode z (header model ++ stream) model = .error .payloadTooShort := by
  rw [decode_of_hasHeader hasHeader_append, drop_header_append, inflated]
  dsimp only
  rw [SaveState.read?_of_cut fits whole more]

/-- A file of one model is refused by the other, whatever its payload is. -/
theorem decode_other_model {other : ChipModel} (differ : other ≠ model) :
    decode z (header other ++ stream) model = .error (.modelMismatch (some other) model) := by
  have written : HasHeader (header other ++ stream) other := hasHeader_append
  have fault : Fault z (header other ++ stream) model 3 (.modelMismatch _ model) :=
    .code (by rw [written.code]; exact mt (fun same => ChipModel.eq_of_code_eq (Option.some.inj same)) differ)
  rw [written.code, Option.bind_some, ChipModel.ofCode?_code] at fault
  refine decode_eq_error_iff.mpr ⟨3, fault, ?_⟩
  rintro _ early _ (short | wrong | wrong | _)
  · exact absurd written.long (Nat.not_le.mpr short)
  · exact wrong written.magic
  · exact wrong written.version
  all_goals omega

theorem message_of_unknown_code {code : UInt8} (unknown : ∀ known : ChipModel, code ≠ known.code) :
    (ChipError.modelMismatch (ChipModel.ofCode? code) model).message =
      "chip model mismatch: save=? current=" ++ model.name := by
  have none : ChipModel.ofCode? code = none :=
    Option.eq_none_iff_forall_ne_some.mpr fun known same => unknown known (ChipModel.ofCode?_eq_some_iff.mp same)
  rw [none]
  cases model <;> rfl

/-- **Decoding accepts exactly the format.** Whatever compressed streams stand for, a file is accepted with
the one state that it holds, and refused because of its first fault; a code that is no model's shows as a
question mark. An encoded state is decoded again if what has been compressed comes back, no part of a
payload is accepted for the whole, and no file of one model is accepted by the other. -/
theorem decode_accepts_format (z : Compression) (model : ChipModel) :
    (∀ file s, decode z file model = .ok s ↔ Holds z file model s) ∧
    (∀ file s s', Holds z file model s → Holds z file model s' → s = s') ∧
    (∀ file e, decode z file model = .error e ↔ FirstFault z file model e) ∧
    (∀ code, (∀ known : ChipModel, code ≠ known.code) →
      (ChipError.modelMismatch (ChipModel.ofCode? code) model).message =
        "chip model mismatch: save=? current=" ++ model.name) ∧
    (∀ s, s.Fits →
      (z.Inverts → decode z (encode z s model) model = .ok s) ∧
      ∀ front missing stream, s.toBytes = front ++ missing → missing ≠ [] → z.inflate stream = .ok front →
        decode z (header model ++ stream) model = .error .payloadTooShort) ∧
    ∀ s other, other ≠ model → decode z (encode z s other) model = .error (.modelMismatch (some other) model) :=
  ⟨fun _ _ => decode_eq_ok_iff, fun _ _ _ => Holds.eq, fun _ _ => decode_eq_error_iff,
    fun _ => message_of_unknown_code,
    fun _ fits => ⟨fun inverts => decode_encode inverts fits, fun _ _ _ => decode_cut_payload fits⟩,
    fun _ _ => decode_other_model⟩

/-- A state with one socket comes back from a file whose payload is stored. -/
theorem decode_accepts_format_stored :
    Compression.stored.Inverts ∧
    decode .stored (encode .stored ⟨[1, 2], [⟨[3], [], [4, 5], 6⟩]⟩ .w5500) .w5500 =
      .ok ⟨[1, 2], [⟨[3], [], [4, 5], 6⟩]⟩ ∧
    decode .stored (encode .stored ⟨[1, 2], [⟨[3], [], [4, 5], 6⟩]⟩ .w5100) .w5500 =
      .error (.modelMismatch (some .w5100) .w5500) := by
  obtain ⟨-, -, -, -, encoded, foreign⟩ := decode_accepts_format .stored .w5500
  have fits : (⟨[1, 2], [⟨[3], [], [4, 5], 6⟩]⟩ : SaveState).Fits := by
    refine ⟨by decide, by decide, fun socket member => ?_⟩
    rw [List.mem_singleton.mp member]
    exact ⟨by decide, by decide, by decide⟩
  exact ⟨Compression.inverts_stored, (encoded _ fits).1 Compression.inverts_stored, foreign _ .w5100 (by decide)⟩

end SaveFile

end EtherChip

import EtherChip.Proofs.Framing.Selection

/-!
# The grammar of bursts

A selection of the W5500 is an address, a control byte and data. One that reads asks for a byte at the
control byte and for one more at each byte of data, one offset further on; one that writes asks for
nothing until the release and then for one burst, unless there are no data. A selection that ends before
its control byte asks for nothing (`burstOperations`). The decoder follows this grammar in every row of
selections (`bursts_decoded`): the two directions are different states of it, and each has its own
induction over the data (`operations_reading`, `operations_collecting`).
-/
namespace EtherChip

/-- What a selection asks for, one entry for each byte and one for the release. -/
def burstOperations : Bytes → List (Option MemoryOp)
  | high :: low :: control :: data =>
    let block := control >>> 3
    let start := high.toNat * 256 + low.toNat
    if control.toNat.testBit 2 then
      List.replicate (3 + data.length) none ++
        [if data = [] then none else some (.burst (blockAddr block (UInt16.ofNat start)) (data.take maxBurst))]
    else
      [none, none] ++
        (List.range (data.length + 1)).map (fun j => some (.read (blockAddr block (UInt16.ofNat (start + j))))) ++
        [none]
  | short => List.replicate short.length none ++ [none]

/-- After the last offset comes the first. -/
example : burstOperations [0xFF, 0xFF, 0x08, 0, 0] =
    [none, none, some (.read 0x103FF), some (.read 0x400), some (.read 0x401), none] := by decide

theorem selectedBlock_eq (control : UInt8) : selectedBlock control = control >>> 3 := by
  have := control.toNat_lt
  rw [← UInt8.toNat_inj, selectedBlock, UInt8.toNat_ofNat', UInt8.toNat_shiftRight, Nat.shiftRight_eq_div_pow]
  change control.toNat / 8 % 256 = control.toNat / 8
  omega

/-- Offsets count up as a word does. -/
theorem readAddr_wordOf (block high low : UInt8) (j : Nat) :
    readAddr block (wordOf high low) j = blockAddr block (UInt16.ofNat (high.toNat * 256 + low.toNat + j)) := by
  rw [readAddr, wordOf, ← UInt16.ofNat_add]

/-- One selection. -/
theorem operations_selection_burst (bytes : Bytes) :
    (Decoder.idle .w5500).operations (selection bytes) = burstOperations bytes := by
  match bytes with
  | [] | [_] | [_, _] => rfl
  | high :: low :: control :: data =>
    have front : arriving (high :: low :: control :: data) = arriving [high, low, control] ++ arriving data := rfl
    unfold burstOperations
    dsimp only
    rw [← selectedBlock_eq]
    cases direction : asksWrite control with
    | true =>
      have nothing : (#[] : Array UInt8).size ≤ maxBurst := Nat.zero_le maxBurst
      have collected := operations_collecting (selectedBlock control) (wordOf high low) nothing data
      rw [selection, front, List.append_assoc, operations_start, direction, if_pos rfl, collected]
      rw [asksWrite] at direction
      rw [if_pos direction, Nat.add_comm]
      rfl
    | false =>
      have reads := operations_reads high low direction data [some .release]
      rw [asksWrite] at direction
      rw [if_neg (ne_true_of_eq_false direction)]
      simp only [readAddr_wordOf] at reads
      exact reads

/-- **The decoder of the W5500 follows the grammar of bursts**, selection by selection. After each of
them it is idle, has kept no byte, and a further release asks for nothing. -/
theorem bursts_decoded (runs : List Bytes) :
    let d := (Decoder.idle .w5500).after (runs.flatMap selection)
    (Decoder.idle .w5500).operations (runs.flatMap selection) = runs.flatMap burstOperations ∧
    d = .idle .w5500 ∧ d.isIdle = true ∧ d.kept = [] ∧ d.deselect = (none, d) := by
  intro d
  have ended : d = .idle .w5500 := Decoder.after_selections .w5500 runs
  rw [Decoder.operations_selections, ended]
  exact ⟨congrArg runs.flatMap (funext operations_selection_burst), rfl, rfl, rfl, rfl⟩

end EtherChip

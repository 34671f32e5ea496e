import EtherChip.Proofs.Framing.Walk

/-!
# Selections

From the outside a framing sees one selection after the other: bytes arrive, and then the chip is
released. A release leaves nothing of its selection behind (`after_selections`), so a framing decodes
each selection on its own, whatever came before it (`operations_selections`).
-/
namespace EtherChip

/-- One selection of the chip: bytes arrive, and then it is released. -/
def selection (bytes : Bytes) : List (Option BusEvent) := arriving bytes ++ [some .release]

namespace Decoder

/-- The bytes of a write burst that is being collected. -/
def kept : Decoder → Bytes
  | burst (.writing _ _ data) => data.toList
  | _ => []

/-- Releasing the chip asks for nothing, unless a write has been collected. -/
theorem deselect_of_kept {d : Decoder} (unbuffered : d.kept = []) : d.deselect.1 = none := by
  cases d with
  | frame s => rfl
  | burst s =>
    cases s with
    | writing block addr data =>
      have empty : data = #[] := by simpa [kept] using unbuffered
      rw [empty]
      rfl
    | addrHigh | addrLow | control | reading => rfl

theorem after_append (d : Decoder) (events later : List (Option BusEvent)) :
    d.after (events ++ later) = (d.after events).after later := List.foldl_append

/-- Whatever has happened since, a release leads to the same state. -/
theorem deselect_after (d : Decoder) (events : List (Option BusEvent)) :
    (d.after events).deselect.2 = d.deselect.2 := by
  induction events generalizing d with
  | nil => rfl
  | cons event events ih => exact (ih (d.meet event).2).trans (d.deselect_meet event)

theorem deselect_idle (model : ChipModel) : (idle model).deselect = (none, idle model) := by
  cases model <;> rfl

theorem after_selection (model : ChipModel) (bytes : Bytes) :
    (idle model).after (selection bytes) = idle model := by
  have released : (idle model).after (selection bytes) = ((idle model).after (arriving bytes)).deselect.2 :=
    after_append (idle model) (arriving bytes) [some .release]
  rw [released, deselect_after, deselect_idle]

theorem after_selections (model : ChipModel) (runs : List Bytes) :
    (idle model).after (runs.flatMap selection) = idle model := by
  induction runs with
  | nil => rfl
  | cons run runs ih => rw [List.flatMap_cons, after_append, after_selection, ih]

/-- **Selections are decoded independently.** -/
theorem operations_selections (model : ChipModel) (runs : List Bytes) :
    (idle model).operations (runs.flatMap selection) =
      runs.flatMap fun run => (idle model).operations (selection run) := by
  induction runs with
  | nil => rfl
  | cons run runs ih =>
    rw [List.flatMap_cons, List.flatMap_cons, operations_append, after_selection, ih]

end Decoder

end EtherChip

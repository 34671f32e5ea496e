import EtherChip.Bench.Session
import EtherChip.Proofs.Bench.Play

/-!
# How patient the bench is

Its patience decides only whether the bench sees the end of a run, not how the run ends: what comes to an
end with some patience comes to the same end with more (`Options.run_patient`).
-/
namespace EtherChip.Bench

variable {ν α β : Type}

/-- Where the first action comes to an end, the second comes to the same end with the same patience or more. -/
def Extends (act act' : BenchM ν α) : Prop :=
  ∀ ⦃patience patience' : Nat⦄, patience ≤ patience' →
    ∀ c net result, act patience c net = some result → act' patience' c net = some result

/-- An action that has come to an end ends in the same way with more patience. -/
def Patient (act : BenchM ν α) : Prop := Extends act act

/-! ## Rules -/

theorem RunM.bind_eq_some {x : RunM ν α} {next : α → RunM ν β} {net : ν} {result : β × ν} :
    (x >>= next) net = some result ↔ ∃ a net', x net = some (a, net') ∧ next a net' = some result := by
  constructor
  · intro ended
    obtain ⟨⟨a, net'⟩, begun, ended⟩ := Option.bind_eq_some_iff.mp ended
    exact ⟨a, net', begun, ended⟩
  · intro ⟨a, net', begun, ended⟩
    rw [RunM.bind_of_some begun]
    exact ended

namespace Extends

theorem bind {act act' : BenchM ν α} {next next' : α → BenchM ν β} (first : Extends act act')
    (rest : ∀ a, Extends (next a) (next' a)) : Extends (act >>= next) (act' >>= next') := by
  intro patience patience' more c net result ended
  rw [BenchM.bind_run] at ended ⊢
  obtain ⟨⟨a, c'⟩, net', begun, ended⟩ := RunM.bind_eq_some.mp ended
  have begun' := first more c net _ begun
  have ended' := rest a more c' net' result ended
  exact RunM.bind_eq_some.mpr ⟨_, net', begun', ended'⟩

theorem bind_read {next next' : Nat → BenchM ν β}
    (rest : ∀ patience patience', patience ≤ patience' → Extends (next patience) (next' patience')) :
    Extends (read >>= next) (read >>= next') := by
  intro patience patience' more c net result ended
  exact rest patience patience' more more c net result ended

end Extends

namespace Patient

theorem pure (a : α) : Patient (Pure.pure a : BenchM ν α) := by
  intro _ _ _ _ _ _ ended
  exact ended

theorem get : Patient (MonadState.get : BenchM ν Chip) := by
  intro _ _ _ _ _ _ ended
  exact ended

theorem onBus (act : BusM ν α) : Patient (Bench.onBus act) := by
  intro _ _ _ _ _ _ ended
  exact ended

/-! ## What the bench does -/

variable [NetHost ν]

/-- A wait that ends within some reads of the command register ends within more. -/
theorem awaitAccepted (socket : Nat) {reads reads' : Nat} (more : reads ≤ reads') :
    Extends (ν := ν) (Bench.awaitAccepted socket reads) (Bench.awaitAccepted socket reads') := by
  induction reads generalizing reads' with
  | zero => exact fun _ _ _ _ _ _ ended => absurd ended nofun
  | succ reads ih =>
    obtain ⟨reads', rfl⟩ : ∃ n, reads' = n + 1 := ⟨reads' - 1, by omega⟩
    refine (onBus _).bind fun shown => ?_
    by_cases zero : shown = 0
    · rw [if_pos zero, if_pos zero]
      exact pure ()
    · rw [if_neg zero, if_neg zero]
      exact ih (by omega)

theorem command (socket : Nat) (c : Command) : Patient (ν := ν) (Bench.command socket c) := by
  refine (onBus _).bind fun _ => .bind_read fun patience patience' more => ?_
  exact awaitAccepted socket (Nat.succ_le_succ more)

theorem openDatagram (socket : Nat) (port : UInt16) : Patient (ν := ν) (Bench.openDatagram socket port) :=
  (onBus _).bind fun _ => (onBus _).bind fun _ => (command _ _).bind fun _ => (onBus _).bind fun _ => pure _

theorem sendDatagram (socket : Nat) (dest : Endpoint) (data : Bytes) :
    Patient (ν := ν) (Bench.sendDatagram socket dest data) :=
  (onBus _).bind fun _ => (onBus _).bind fun _ => (onBus _).bind fun _ => (onBus _).bind fun _ =>
    (onBus _).bind fun _ => command _ _

theorem receive (socket maxSteps : Nat) : Patient (ν := ν) (Bench.receive socket maxSteps) := by
  refine (onBus _).bind fun received => ?_
  cases received with
  | none => exact pure _
  | some size =>
    exact (onBus _).bind fun _ => (onBus _).bind fun _ => (onBus _).bind fun _ => (command _ _).bind fun _ => pure _

theorem exchange (port : UInt16) (dest : Endpoint) (request : Bytes) (maxSteps : Nat) :
    Patient (ν := ν) (Bench.exchange port dest request maxSteps) := by
  refine (openDatagram _ _).bind fun opened => ?_
  cases opened with
  | error e => exact pure _
  | ok _ =>
    refine (sendDatagram _ _ _).bind fun _ => (receive _ _).bind fun reply => ?_
    cases reply with
    | none => exact pure _
    | some reply => exact (command _ _).bind fun _ => pure _

theorem run (maxSteps : Nat) (demo : Demo) : Patient (ν := ν) (demo.run maxSteps) := by
  cases demo with
  | regs => exact get.bind fun _ => pure _
  | dhcp => exact (onBus _).bind fun _ => (exchange _ _ _ _).bind fun _ => pure _
  | ntp => exact get.bind fun _ => (exchange _ _ _ _).bind fun _ => pure _

end Patient

/-- **More patience does not change a result.** A run that comes to an end comes to the same end, with the same
report and the same files, when the bench is more patient. -/
theorem Options.run_patient [NetHost ν] (o : Options) (z : Compression) {patience patience' : Nat}
    (more : patience ≤ patience') (storage : Storage) (net : ν) {result : (Report × Storage) × ν}
    (ended : o.run z patience storage net = some result) : o.run z patience' storage net = some result := by
  rw [Options.run] at ended ⊢
  obtain ⟨started, net', start, ended⟩ := RunM.bind_eq_some.mp ended
  refine RunM.bind_eq_some.mpr ⟨started, net', start, ?_⟩
  cases started with
  | error e => exact ended
  | ok chip =>
    obtain ⟨demo, net'', ran, ended⟩ := RunM.bind_eq_some.mp ended
    have ran' := Patient.run o.maxSteps o.demo more chip net' _ ran
    exact RunM.bind_eq_some.mpr ⟨demo, net'', ran', ended⟩

end EtherChip.Bench

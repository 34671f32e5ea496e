import EtherChip.Proofs.Bench.Demos

/-!
# The clock in the time demo

A timestamp counts seconds from 1900 and starts over after 2^32 of them, which a clock in Unix seconds
reaches at 2085978496, in February 2036. The time demo turns the timestamp back into Unix seconds without
regard to this: what it shows is the clock up to that moment, and zero for the rest of the span that a
timestamp can tell apart (`time_demo_unix`).
-/
namespace EtherChip.Bench

/-- Decimal digits read back as their number. -/
theorem repr_inj {m n : Nat} : m.repr = n.repr ↔ m = n := by
  refine ⟨fun same => ?_, fun same => same ▸ rfl⟩
  rw [Nat.repr_eq_ofList_toDigits, Nat.repr_eq_ofList_toDigits, String.ofList_inj] at same
  rw [← Nat.ofDigitChars_toDigits (b := 10) (n := m) (by decide) (by decide), same,
    Nat.ofDigitChars_toDigits (by decide) (by decide)]

/-- The line of the time demo for a timestamp, with what it shows as Unix seconds. -/
def unixLine (seconds unix : Nat) : String :=
  "NTP transmit time: " ++ seconds.repr ++ " (unix " ++ unix.repr ++ ")\n"

theorem unixLine_inj {seconds unix unix' : Nat} : unixLine seconds unix = unixLine seconds unix' ↔ unix = unix' := by
  unfold unixLine
  exact (String.append_left_inj _).trans ((String.append_right_inj _).trans repr_inj)

/-- What the demo makes of the timestamp for a clock: the clock, unless timestamps have started over. -/
theorem timestamp_back {clock : Nat} (span : clock < 4294967296) :
    (clock + 2208988800) % 4294967296 - 2208988800 = if clock < 2085978496 then clock else 0 := by
  by_cases before : clock < 2085978496
  · rw [if_pos before]
    omega
  · rw [if_neg before]
    omega

/-- A run of the time demo on a network on which nothing has happened. -/
theorem Options.report?_time {o : Options} {z : Compression} {storage : Storage} (time : o.demo = .ntp)
    (restores : o.Restores z storage) (saves : ∀ path, o.saveState = some path → storage.hasRoom path = true)
    (patience : Nat) (clock : Int) (bindable : Network.Bindable o.config.bindAddr) :
    o.report? z patience storage (Network.untouched clock) =
      some { exitCode := 0, output := timeLine (Sntp.timestampSeconds clock.toNat) } := by
  have completes (e : Engine) (closed : e.status = .closed) (none : e.host = .none) :=
    (o.completes_bindable clock bindable closed none).2
  rw [← Demo.run, ← time] at completes
  exact Options.report?_of_completes restores saves completes patience

/-- **What the time demo shows.** On either model, with a clock that a timestamp can tell apart, the demo ends
with any patience and prints the timestamp of the clock, and as Unix seconds the clock itself or zero. It is
the clock exactly as long as timestamps have not started over. -/
theorem time_demo_unix {o : Options} {z : Compression} {storage : Storage} (time : o.demo = .ntp)
    (restores : o.Restores z storage) (saves : ∀ path, o.saveState = some path → storage.hasRoom path = true)
    (bindable : Network.Bindable o.config.bindAddr) (patience clock : Nat) (span : clock < 4294967296) :
    let report := o.report? z patience storage ({ clock := clock } : Network)
    let seconds := (clock + 2208988800) % 4294967296
    report = some { exitCode := 0, output := unixLine seconds (if clock < 2085978496 then clock else 0) } ∧
    (report = some { exitCode := 0, output := unixLine seconds clock } ↔ clock < 2085978496) := by
  intro report seconds
  have printed :
      report = some { exitCode := 0, output := unixLine seconds (if clock < 2085978496 then clock else 0) } := by
    rw [← timestamp_back span]
    exact Options.report?_time time restores saves patience clock bindable
  refine ⟨printed, ?_⟩
  rw [printed, Option.some_inj, Report.mk.injEq, unixLine_inj]
  by_cases before : clock < 2085978496
  · simp [before]
  · rw [if_neg before]
    omega

/-- The last second that is shown, and the one after it. -/
theorem time_demo_unix_last :
    Options.report? { demo := .ntp } .stored 0 {} ({ clock := (2085978495 : Nat) } : Network) =
      some { exitCode := 0, output := unixLine 4294967295 2085978495 } ∧
    Options.report? { demo := .ntp, model := .w5100 } .stored 0 {} ({ clock := (2085978496 : Nat) } : Network) =
      some { exitCode := 0, output := unixLine 0 0 } := by
  obtain ⟨last, -⟩ := time_demo_unix (o := { demo := .ntp }) rfl nofun nofun (.inl rfl) 0 2085978495 (by decide)
  obtain ⟨after, -⟩ :=
    time_demo_unix (o := { demo := .ntp, model := .w5100 }) rfl nofun nofun (.inl rfl) 0 2085978496 (by decide)
  exact ⟨last, after⟩

end EtherChip.Bench

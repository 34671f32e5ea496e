/-!
# Programs against any host

A program that makes host calls is a state change of the host. `Always x P` says that its result
has the property `P` whatever the host answers, now and at every later call. It is closed under
sequencing, so nothing about a call has to be known but the type of its answer.
-/
namespace EtherChip

variable {ν α β : Type}

/-- Every result that a program can have, whatever the host answers, has a property. -/
def Always (x : StateM ν α) (P : α → Prop) : Prop := ∀ net, P (x net).1

namespace Always

theorem any (x : StateM ν α) : Always x fun _ => True := fun _ => trivial

theorem pure {a : α} {P : α → Prop} (h : P a) : Always (Pure.pure a : StateM ν α) P := fun _ => h

theorem bind {x : StateM ν α} {f : α → StateM ν β} {Q : α → Prop} {P : β → Prop}
    (hx : Always x Q) (hf : ∀ a, Q a → Always (f a) P) : Always (x >>= f) P :=
  fun net => hf _ (hx net) _

theorem mono {x : StateM ν α} {P Q : α → Prop} (hx : Always x P) (h : ∀ a, P a → Q a) :
    Always x Q := fun net => h _ (hx net)

end Always

/-! ## Answers -/

variable {ε : Type}

/-- A call is answered with a value. -/
def Succeeds (x : StateM ν (Except ε α)) (net : ν) : Prop := ∃ a, (x net).1 = .ok a

/-- A call is answered with a failure. -/
def Fails (x : StateM ν (Except ε α)) (net : ν) : Prop := ∃ e, (x net).1 = .error e

theorem not_succeeds {x : StateM ν (Except ε α)} {net : ν} : ¬ Succeeds x net ↔ Fails x net := by
  unfold Succeeds Fails
  cases (x net).1 <;> simp

instance (x : StateM ν (Except ε α)) (net : ν) : Decidable (Fails x net) :=
  match answer : (x net).1 with
  | .ok _ => .isFalse fun ⟨_, failed⟩ => nomatch answer.symm.trans failed
  | .error e => .isTrue ⟨e, answer⟩

instance (x : StateM ν (Except ε α)) (net : ν) : Decidable (Succeeds x net) :=
  match answer : (x net).1 with
  | .ok a => .isTrue ⟨a, answer⟩
  | .error _ => .isFalse fun ⟨_, worked⟩ => nomatch answer.symm.trans worked

/-! ## Runs -/

theorem bind_run (x : StateM ν α) (f : α → StateM ν β) (net : ν) :
    (x >>= f) net = f (x net).1 (x net).2 := rfl

theorem get_run (f : ν → StateM ν β) (net : ν) : (get >>= f) net = f net net := rfl

/-- A run that makes no call. -/
theorem pure_run {a b : α} {net net' : ν} (h : (Pure.pure a : StateM ν α) net = (b, net')) :
    a = b ∧ net = net' :=
  Prod.mk.inj h

end EtherChip

import EtherChip.Proofs.Host.Outcome
import EtherChip.Socket.Ring

/-!
# Operations that can be fatal

Some operations have no result on some of their arguments, and a program that comes to such a point is over:
an index past the end of its buffer, a range that does not lie in it, a copy between two ranges of different
lengths, a sum that does not fit its width, a difference below zero. Here they are with their checks, and
`none` is the end of the program. A program in which every such operation is checked (`Guarded`) fulfils one
in which none is (`Fulfils`) if it does the same against every state of the host and never comes to an end
for lack of a result.
-/
namespace EtherChip.Checked

/-! ## Numbers -/

/-- How many indices and lengths there are, at least. -/
abbrev indexSize : Nat := 4294967296

/-- A sum of numbers of which there are `size`. -/
def add (size a b : Nat) : Option Nat := if a + b < size then some (a + b) else none

def mul (size a b : Nat) : Option Nat := if a * b < size then some (a * b) else none

def sub (a b : Nat) : Option Nat := if b ≤ a then some (a - b) else none

variable {size a b : Nat}

theorem add_eq (h : a + b < size) : add size a b = some (a + b) := if_pos h

theorem mul_eq (h : a * b < size) : mul size a b = some (a * b) := if_pos h

theorem sub_eq (h : b ≤ a) : sub a b = some (a - b) := if_pos h

theorem eq_of_add {c : Nat} (h : add size a b = some c) : c = a + b := by
  unfold add at h
  split at h
  · exact (Option.some.inj h).symm
  · cases h

/-! ## Buffers -/

/-- The bytes of a buffer in a range. -/
def slice (buffer : Bytes) (start stop : Nat) : Option Bytes :=
  if start ≤ stop ∧ stop ≤ buffer.length then some ((buffer.take stop).drop start) else none

/-- Copies bytes into a range of cells, which has to be as long as they are. -/
def fill {n : Nat} (cells : Vector UInt8 n) (start stop : Nat) (data : Bytes) : Option (Vector UInt8 n) :=
  if start ≤ stop ∧ stop ≤ n ∧ data.length = stop - start then some (overlay cells start data) else none

/-- Replaces the value at an index. -/
def put {α : Type} {n : Nat} (cells : Vector α n) (i : Nat) (value : α) : Option (Vector α n) :=
  if h : i < n then some (cells.set i value h) else none

/-- Copies saved bytes over the first cells, as many as there are of both. -/
def restore {n : Nat} (cells : Vector UInt8 n) (data : Bytes) : Option (Vector UInt8 n) := do
  let len := min data.length n
  fill cells 0 len (← slice data 0 len)

theorem slice_eq {buffer : Bytes} {start stop : Nat} (order : start ≤ stop) (inside : stop ≤ buffer.length) :
    slice buffer start stop = some ((buffer.take stop).drop start) := if_pos ⟨order, inside⟩

theorem slice_front {buffer : Bytes} {stop : Nat} (inside : stop ≤ buffer.length) :
    slice buffer 0 stop = some (buffer.take stop) := slice_eq (Nat.zero_le stop) inside

/-- The front of a buffer, cut to what there is. -/
theorem slice_capped (buffer : Bytes) (n : Nat) : slice buffer 0 (min buffer.length n) = some (buffer.take n) := by
  rw [slice_front (Nat.min_le_left ..), Nat.min_comm, ← List.take_take, List.take_length]

theorem eq_of_slice {buffer back : Bytes} {start : Nat} (h : slice buffer start buffer.length = some back) :
    buffer.drop start = back := by
  unfold slice at h
  split at h
  · rwa [List.take_length, Option.some.injEq] at h
  · cases h

theorem slice_back {buffer : Bytes} {start : Nat} (inside : start ≤ buffer.length) :
    slice buffer start buffer.length = some (buffer.drop start) := by
  rw [slice_eq inside (Nat.le_refl _), List.take_length]

theorem fill_eq {n : Nat} {cells : Vector UInt8 n} {start stop : Nat} {data : Bytes}
    (length : start + data.length = stop) (inside : stop ≤ n) :
    fill cells start stop data = some (overlay cells start data) := if_pos ⟨by omega, inside, by omega⟩

theorem put_eq {α : Type} {n : Nat} (cells : Vector α n) {i : Nat} (value : α) (inside : i < n) :
    put cells i value = some (cells.set i value inside) := dif_pos inside

/-! ## Programs -/

variable {ν α β : Type}

/-- An operation that has a result is passed. -/
theorem pass {o : Option α} {a : α} {f : α → Option β} {b : Option β} (h : o = some a) (rest : f a = b) :
    (o >>= f) = b := by
  subst h
  exact rest

theorem restore_eq {n : Nat} (cells : Vector UInt8 n) (data : Bytes) :
    restore cells data = some (overlay cells 0 (data.take n)) := by
  refine pass (slice_capped ..) (fill_eq ?_ (Nat.min_le_right ..))
  rw [Nat.zero_add, List.length_take, Nat.min_comm]

/-- The same where the recursion behind it needs to know the result. -/
theorem pass_attach {o : Option α} {a : α} {f : { x : α // o = some x } → Option β} {b : Option β} (h : o = some a)
    (rest : f ⟨a, h⟩ = b) : (o.attach >>= f) = b := by
  subst h
  exact rest

/-- A program with host calls that can come to an end for lack of a result. -/
abbrev Guarded (ν α : Type) := StateT ν Option α

/-- A program in which nothing has to be checked. -/
def call (x : StateM ν α) : Guarded ν α := fun net => some (x net)

/-- The guarded program always has a result, which is that of the other one. -/
def Fulfils (g : Guarded ν α) (x : StateM ν α) : Prop := ∀ net, g net = some (x net)

namespace Fulfils

theorem pure (a : α) : Fulfils (Pure.pure a : Guarded ν α) (Pure.pure a) := fun _ => rfl

theorem call (x : StateM ν α) : Fulfils (Checked.call x) x := fun _ => rfl

/-- One program after another, when something is known of the first result. -/
theorem bind_known {g : Guarded ν α} {x : StateM ν α} {P : α → Prop} {f : α → Guarded ν β} {k : α → StateM ν β}
    (first : Fulfils g x) (known : Always x P) (rest : ∀ a, P a → Fulfils (f a) (k a)) :
    Fulfils (g >>= f) (x >>= k) := by
  intro net
  show (g net).bind (fun p => f p.1 p.2) = _
  rw [first net]
  exact rest _ (known net) _

theorem bind {g : Guarded ν α} {x : StateM ν α} {f : α → Guarded ν β} {k : α → StateM ν β} (first : Fulfils g x)
    (rest : ∀ a, Fulfils (f a) (k a)) : Fulfils (g >>= f) (x >>= k) := first.bind_known (.any x) fun a _ => rest a

/-- An operation that has a result is passed. -/
theorem pass {o : Option α} {a : α} {f : α → Guarded ν β} {x : StateM ν β} (h : o = some a)
    (rest : Fulfils (f a) x) : Fulfils ((liftM o : Guarded ν α) >>= f) x := by
  subst h
  exact rest

/-- A checked operation at the end. -/
theorem value {o : Option α} {a : α} (h : o = some a) : Fulfils (liftM o : Guarded ν α) (Pure.pure a) := by
  subst h
  exact .pure a

theorem ite {c : Prop} [Decidable c] {g g' : Guarded ν α} {x x' : StateM ν α} (yes : c → Fulfils g x)
    (no : ¬c → Fulfils g' x') : Fulfils (if c then g else g') (if c then x else x') := by
  split
  · exact yes ‹_›
  · exact no ‹_›

theorem foldlM {g : β → α → Guarded ν β} {x : β → α → StateM ν β} (each : ∀ b a, Fulfils (g b a) (x b a))
    (as : List α) (b : β) : Fulfils (as.foldlM g b) (as.foldlM x b) := by
  induction as generalizing b with
  | nil => exact .pure b
  | cons a as ih => exact .bind (each b a) ih

end Fulfils

end EtherChip.Checked

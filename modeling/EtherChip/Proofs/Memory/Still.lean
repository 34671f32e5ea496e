import EtherChip.Proofs.Framing.Walk

/-!
# Sockets that stay still

A socket stays still on a calm host if polling it changes nothing of it, whatever its rings hold, and
leaves the host calm. Between such sockets a memory only does what it is asked to: a tick without an
operation, or with a read, changes nothing (`Still.tick_reads`), and a write to the rings is all that
its tick does (`Still.tick_write`, `Still.tick_burst`).
-/
namespace EtherChip

variable {ν : Type} [NetHost ν]

/-- Polls do nothing to a socket, whatever its rings hold, and leave the host calm. -/
def Engine.Still (e : Engine) (calm : ν → Prop) : Prop :=
  ∀ tx rx net, calm net →
    (({ e with tx := tx, rx := rx } : Engine).poll net).1 = { e with tx := tx, rx := rx } ∧
    calm (({ e with tx := tx, rx := rx } : Engine).poll net).2

/-- A closed socket stays still on every host. -/
theorem Engine.still_closed {e : Engine} (closed : e.status = .closed) : e.Still fun _ : ν => True := by
  intro tx rx net _
  have same : ({ e with tx := tx, rx := rx } : Engine).poll net = ({ e with tx := tx, rx := rx }, net) := by
    simp only [Engine.poll, closed]
    rfl
  rw [same]
  exact ⟨rfl, trivial⟩

namespace AddressSpace

/-- All sockets stay still. -/
def Still (m : AddressSpace) (calm : ν → Prop) : Prop := ∀ n, (m.sockets.get n).Still calm

theorem still_powerOn (model : ChipModel) (config : NetConfig) : (powerOn model config).Still fun _ : ν => True := by
  intro n
  apply Engine.still_closed
  match n with
  | 0 | 1 | 2 | 3 => rfl

namespace Still

variable {m : AddressSpace} {calm : ν → Prop}

theorem poll (h : m.Still calm) {net : ν} (now : calm net) : (m.poll net).1 = m ∧ calm (m.poll net).2 := by
  obtain ⟨first, now⟩ := h 0 (m.sockets.get 0).tx (m.sockets.get 0).rx net now
  obtain ⟨second, now⟩ := h 1 (m.sockets.get 1).tx (m.sockets.get 1).rx _ now
  obtain ⟨third, now⟩ := h 2 (m.sockets.get 2).tx (m.sockets.get 2).rx _ now
  obtain ⟨fourth, now⟩ := h 3 (m.sockets.get 3).tx (m.sockets.get 3).rx _ now
  refine ⟨?_, now⟩
  have sockets : (m.poll net).1.sockets = m.sockets := by
    apply Vector.ext
    intro i lt
    match i, lt with
    | 0, _ => exact first
    | 1, _ => exact second
    | 2, _ => exact third
    | 3, _ => exact fourth
  have kept : (m.poll net).1 = { m with sockets := (m.poll net).1.sockets } := rfl
  rw [kept, sockets]

/-- A byte in a ring wakes no socket. -/
theorem put (h : m.Still calm) {x : UInt32} (inside : InRings x) (value : UInt8) : (m.put (route x) value).Still calm := by
  intro n
  rcases route_inRings inside with ⟨s, target, -⟩ | ⟨s, target, -⟩
  all_goals
    rw [target, AddressSpace.put]
    by_cases same : n = s
    · rw [same, socket_setSocket_self]
      exact fun tx rx net now => h s tx rx net now
    · rw [socket_setSocket_of_ne _ _ same]
      exact h n

theorem putAll (h : m.Still calm) {walk : Nat → UInt32} {data : Bytes} (inside : ∀ j < data.length, InRings (walk j)) :
    (m.putAll (fun j => route (walk j)) data).Still calm := by
  induction data generalizing m walk with
  | nil => exact h
  | cons b bs ih =>
    have later (j : Nat) (lt : j < bs.length) : InRings (walk (j + 1)) := inside (j + 1) (Nat.succ_lt_succ lt)
    exact ih (h.put (inside 0 (Nat.succ_pos _)) b) later

end Still

/-! ## Ticks -/

/-- An operation that changes nothing. -/
def Reads : Option MemoryOp → Prop
  | none | some (.read _) => True
  | some (.write _ _) | some (.burst _ _) => False

instance : DecidablePred Reads
  | none | some (.read _) => isTrue trivial
  | some (.write _ _) | some (.burst _ _) => isFalse not_false

namespace Still

variable {m : AddressSpace} {calm : ν → Prop} {net : ν}

theorem tick_reads (h : m.Still calm) (now : calm net) {op : Option MemoryOp} (reads : Reads op) :
    (m.tick op net).1 = m ∧ calm (m.tick op net).2 := by
  match op, reads with
  | none, _ | some (.read _), _ => exact h.poll now

theorem ticks_reads (h : m.Still calm) (now : calm net) {ops : List (Option MemoryOp)} (reads : ∀ op ∈ ops, Reads op) :
    (m.ticks ops net).1 = m ∧ calm (m.ticks ops net).2 := by
  induction ops generalizing net with
  | nil => exact ⟨rfl, now⟩
  | cons op ops ih =>
    obtain ⟨same, next⟩ := h.tick_reads now (reads op List.mem_cons_self)
    rw [ticks, bind_run, same]
    exact ih next fun op member => reads op (List.mem_cons_of_mem _ member)

theorem tick_write (h : m.Still calm) (now : calm net) {x : UInt32} (inside : InRings x) (value : UInt8) :
    (m.tick (some (.write x value)) net).1 = m.put (route x) value ∧ calm (m.tick (some (.write x value)) net).2 := by
  have run : m.tick (some (.write x value)) net = (m.put (route x) value).poll net := by
    have written : (m.write x value : StateM ν _) net = _ := m.write_plain (plain_inRings inside) value net
    change ((m.write x value : StateM ν _) net).1.poll ((m.write x value : StateM ν _) net).2 = _
    rw [written]
  obtain ⟨same, next⟩ := (h.put inside value).poll now
  rw [run]
  exact ⟨same, next⟩

theorem tick_burst (h : m.Still calm) (now : calm net) {start : UInt32} (inside : InRings start) (data : Bytes) :
    let after := m.tick (some (.burst start data)) net
    after.1 = m.putAll (fun j => route (burstAddr start j)) data ∧ calm after.2 := by
  intro after
  have run : after = (m.putAll (fun j => route (burstAddr start j)) data).poll net := by
    have written : (m.writeBurst start data : StateM ν _) net = _ :=
      m.writeBurst_plain start (fun j _ => plain_inRings (inRings_burstAddr inside j)) net
    change ((m.writeBurst start data : StateM ν _) net).1.poll ((m.writeBurst start data : StateM ν _) net).2 = _
    rw [written]
  obtain ⟨same, next⟩ := (h.putAll fun j _ => inRings_burstAddr inside j).poll now
  rw [run]
  exact ⟨same, next⟩

/-- One operation among reads. -/
theorem ticks_among (h : m.Still calm) (now : calm net) {op : Option MemoryOp} {m' : AddressSpace}
    (step : ∀ net, calm net → (m.tick op net).1 = m' ∧ calm (m.tick op net).2) (still : m'.Still calm)
    {before after : List (Option MemoryOp)} (reads : ∀ op ∈ before, Reads op) (reads' : ∀ op ∈ after, Reads op) :
    (m.ticks (before ++ op :: after) net).1 = m' ∧ calm (m.ticks (before ++ op :: after) net).2 := by
  obtain ⟨same, next⟩ := h.ticks_reads now reads
  obtain ⟨stepped, next⟩ := step _ next
  rw [ticks_append, same, ticks, bind_run, stepped]
  exact still.ticks_reads next reads'

end Still

end AddressSpace

end EtherChip

import EtherChip.Chip
import EtherChip.Proofs.Socket.Receive

/-!
# Ticks of a memory

At every step of a chip its memory makes one tick: the operation that the framing came up with, if
any, is carried out, and then every socket is polled. The sockets are polled in turn, so each meets
the host as the ones before it leave it (`met`). What a socket takes from the host in a run of ticks
is what its polls hand to its receive ring, in order (`taken`).
-/
namespace EtherChip

theorem toNat_registerAddr (s : Fin socketCount) (cell : Fin 0x100) :
    (registerAddr s cell).toNat = 0x400 + s.val * 0x100 + cell.val := by
  have := s.isLt
  simp only [registerAddr, UInt32.toNat_ofNat', socketCount] at *
  omega

/-- The address of a register cell names that cell. -/
theorem route_registerAddr (s : Fin socketCount) (cell : Fin 0x100) :
    route (registerAddr s cell) = .register s cell := by
  have := s.isLt
  have := cell.isLt
  unfold route
  simp only [toNat_registerAddr, socketCount] at *
  rw [dif_neg (by omega), dif_pos (by omega)]
  congr 1 <;> apply Fin.ext <;> dsimp only <;> omega

namespace AddressSpace

theorem socket_setSocket_self (m : AddressSpace) (n : Fin socketCount) (e : Engine) :
    (m.setSocket n e).sockets.get n = e :=
  Vector.getElem_set_self n.isLt

variable {ν : Type}

/-- The host that socket `n` meets when every socket is changed in turn. -/
def met (m : AddressSpace) (f : Fin socketCount → Engine → StateM ν Engine) (n : Fin socketCount)
    (net : ν) : ν :=
  ((List.finRange socketCount).take n.val).foldl (fun net i => (f i (m.sockets.get i) net).2) net

theorem socket_forSockets (m : AddressSpace) (f : Fin socketCount → Engine → StateM ν Engine)
    (n : Fin socketCount) (net : ν) :
    (m.forSockets f net).1.sockets.get n = (f n (m.sockets.get n) (m.met f n net)).1 := by
  match n with
  | 0 | 1 | 2 | 3 => rfl

/-! ## Model and configuration -/

/-- What never changes: the model and the configuration. -/
def Same (m m' : AddressSpace) : Prop := m'.model = m.model ∧ m'.config = m.config

theorem Same.trans {m m' m'' : AddressSpace} (h : Same m m') (h' : Same m' m'') : Same m m'' :=
  ⟨h'.1.trans h.1, h'.2.trans h.2⟩

theorem same_forSockets (m : AddressSpace) (f : Fin socketCount → Engine → StateM ν Engine) :
    Always (m.forSockets f) (Same m) := fun _ => ⟨rfl, rfl⟩

variable [NetHost ν]

theorem same_write (m : AddressSpace) (addr : UInt32) (value : UInt8) :
    Always (m.write addr value : StateM ν _) (Same m) := by
  unfold write
  cases route addr with
  | common i =>
    dsimp only
    split
    · exact .bind (same_forSockets _ _) fun _ same => .pure same
    · exact .pure ⟨rfl, rfl⟩
  | register => exact .bind (.any _) fun _ _ => .pure ⟨rfl, rfl⟩
  | tx | rx | unmapped => exact .pure ⟨rfl, rfl⟩

theorem same_writeBurstFrom (m : AddressSpace) (start : UInt32) (i : Nat) (data : Bytes) :
    Always (m.writeBurstFrom start i data : StateM ν _) (Same m) := by
  induction data generalizing m i with
  | nil => exact .pure ⟨rfl, rfl⟩
  | cons b bs ih =>
    exact .bind (same_write m _ b) fun _ first => (ih _ _).mono fun _ rest => first.trans rest

/-- A write to a register cell is a write to its socket. -/
theorem write_register (m : AddressSpace) {a : UInt32} {s : Fin socketCount} {cell : Fin 0x100}
    (target : route a = .register s cell) (value : UInt8) (net : ν) :
    m.write a value net =
      let r := (m.sockets.get s).writeRegister m.config cell.val value net
      (m.setSocket s r.1, r.2) := by
  unfold write
  rw [target]
  rfl

/-! ## Ticks -/

/-- The memory at one step of its chip. -/
def tick (m : AddressSpace) (op : Option MemoryOp) : StateM ν AddressSpace := do
  let (_, m) ← Chip.executeSome m op
  m.poll

/-- A run of ticks. -/
def ticks (m : AddressSpace) : List (Option MemoryOp) → StateM ν AddressSpace
  | [] => return m
  | op :: ops => do (← m.tick op).ticks ops

theorem ticks_append (m : AddressSpace) (ops later : List (Option MemoryOp)) (net : ν) :
    m.ticks (ops ++ later) net = (m.ticks ops net).1.ticks later (m.ticks ops net).2 := by
  induction ops generalizing m net with
  | nil => rfl
  | cons op ops ih => exact ih _ _

theorem same_tick (m : AddressSpace) (op : Option MemoryOp) : Always (m.tick op : StateM ν _) (Same m) := by
  have executed : Always (Chip.executeSome m op : StateM ν _) fun r => Same m r.2 := by
    match op with
    | none | some (.read addr) => exact .pure ⟨rfl, rfl⟩
    | some (.write addr value) => exact .bind (same_write m addr value) fun _ same => .pure same
    | some (.burst addr data) => exact .bind (same_writeBurstFrom m addr 0 data) fun _ same => .pure same
  exact .bind executed fun r same => (same_forSockets r.2 _).mono fun _ polled => same.trans polled

theorem same_ticks (m : AddressSpace) (ops : List (Option MemoryOp)) :
    Always (m.ticks ops : StateM ν _) (Same m) := by
  induction ops generalizing m with
  | nil => exact .pure ⟨rfl, rfl⟩
  | cons op ops ih => exact .bind (same_tick m op) fun _ first => (ih _).mono fun _ rest => first.trans rest

/-! ## What a socket takes from the host -/

/-- What the poll of a socket hands to its receive ring. -/
def polled (m : AddressSpace) (n : Fin socketCount) (net : ν) : Bytes :=
  ((m.sockets.get n).polled? (m.met (fun _ e => e.poll) n net)).getD []

/-- What a socket takes from the host in a run of ticks. -/
def taken (n : Fin socketCount) (m : AddressSpace) : List (Option MemoryOp) → ν → Bytes
  | [], _ => []
  | op :: ops, net =>
    let executed := Chip.executeSome m op net
    let ticked := m.tick op net
    executed.1.2.polled n executed.2 ++ taken n ticked.1 ops ticked.2

theorem taken_append (n : Fin socketCount) (m : AddressSpace) (ops later : List (Option MemoryOp)) (net : ν) :
    taken n m (ops ++ later) net =
      taken n m ops net ++ taken n (m.ticks ops net).1 later (m.ticks ops net).2 := by
  induction ops generalizing m net with
  | nil => rfl
  | cons op ops ih => exact (congrArg _ (ih _ _)).trans (List.append_assoc _ _ _).symm

end AddressSpace

end EtherChip

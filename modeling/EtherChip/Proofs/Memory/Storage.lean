import EtherChip.Proofs.Memory.Tick

/-!
# Storage

A flat address names a target, and every mapped target has one address (`addr?_route`). Most targets are
plain storage: they keep the byte that is written to them, and writing it changes nothing else
(`byteAt_put`). So a walk over plain targets that never comes back to one leaves its bytes there
(`byteAt_putAll_self`) and everything else alone (`byteAt_putAll_of_ne`).
-/
namespace EtherChip

/-! ## Addresses of targets -/

/-- The flat address of a mapped target. -/
def Target.addr? : Target → Option UInt32
  | .common i => some (UInt32.ofNat i.val)
  | .register s cell => some (registerAddr s cell)
  | .tx s o => some (txAddr s o)
  | .rx s o => some (rxAddr s o)
  | .unmapped => none

theorem addr?_route {x : UInt32} (mapped : route x ≠ .unmapped) : (route x).addr? = some x := by
  have whole : UInt32.ofNat x.toNat = x := UInt32.ofNat_toNat
  unfold route at mapped ⊢
  dsimp only at mapped ⊢
  split at mapped
  next common => rw [dif_pos common]; exact congrArg some whole
  next past =>
    rw [dif_neg past]
    split at mapped
    next register =>
      rw [dif_pos register, Target.addr?, registerAddr]
      have sum : 0x400 + (x.toNat - 0x400) / 0x100 * 0x100 + x.toNat % 0x100 = x.toNat := by omega
      rw [sum, whole]
    next past =>
      rw [dif_neg past]
      split at mapped
      next tx =>
        rw [dif_pos tx, Target.addr?, txAddr]
        have sum : 0x4000 + (x.toNat - 0x4000) / 0x800 * ringSize + (RingOffset.ofNat x.toNat).val = x.toNat := by
          simp only [RingOffset.val_ofNat, ringSize]
          omega
        rw [sum, whole]
      next past =>
        rw [dif_neg past]
        split at mapped
        next rx =>
          rw [dif_pos rx, Target.addr?, rxAddr]
          have sum : 0x6000 + (x.toNat - 0x6000) / 0x800 * ringSize + (RingOffset.ofNat x.toNat).val = x.toNat := by
            simp only [RingOffset.val_ofNat, ringSize]
            omega
          rw [sum, whole]
        next => exact absurd rfl mapped

/-- Two addresses name one target only if they are the same or both unmapped. -/
theorem route_eq_route {x y : UInt32} : route x = route y ↔ x = y ∨ (route x = .unmapped ∧ route y = .unmapped) := by
  refine ⟨fun same => ?_, fun h => ?_⟩
  · by_cases mapped : route x = .unmapped
    · exact .inr ⟨mapped, same ▸ mapped⟩
    · have x_addr := addr?_route mapped
      rw [same] at x_addr mapped
      exact .inl (Option.some.inj (x_addr.symm.trans (addr?_route mapped)))
  · rcases h with rfl | ⟨x_unmapped, y_unmapped⟩
    · rfl
    · rw [x_unmapped, y_unmapped]

/-- A mapped address is the only one of its target. -/
theorem route_eq_iff {x y : UInt32} (mapped : route y ≠ .unmapped) : route x = route y ↔ x = y :=
  route_eq_route.trans (or_iff_left fun gap => mapped gap.2)

/-! ## Targets of addresses -/

theorem toNat_of_register {x : UInt32} {s : Fin socketCount} {cell : Fin 0x100} (target : route x = .register s cell) :
    x.toNat = 0x400 + s.val * 0x100 + cell.val := by
  have addr := addr?_route (x := x) (by rw [target]; exact Target.noConfusion)
  rw [target] at addr
  rw [← Option.some.inj addr, toNat_registerAddr]

/-- A flat address lies in one of the rings. -/
def InRings (x : UInt32) : Prop := 0x4000 ≤ x.toNat ∧ x.toNat < 0x8000

instance : DecidablePred InRings := fun _ => inferInstanceAs (Decidable (_ ∧ _))

theorem route_common {x : UInt32} (h : x.toNat < 0x100) : route x = .common ⟨x.toNat, h⟩ := by
  unfold route
  dsimp only
  rw [dif_pos h]

theorem route_bank {x : UInt32} (h : 0x400 ≤ x.toNat ∧ x.toNat < 0x800) :
    ∃ s cell, route x = .register s cell ∧ cell.val = x.toNat % 0x100 ∧
      x.toNat = 0x400 + 0x100 * s.val + cell.val := by
  refine ⟨⟨(x.toNat - 0x400) / 0x100, by simp only [socketCount]; omega⟩, ⟨x.toNat % 0x100, by omega⟩, ?_, rfl, ?_⟩
  · unfold route
    dsimp only
    rw [dif_neg (by omega), dif_pos h]
  · dsimp only
    omega

/-- Between and past the regions there is nothing. -/
theorem route_elsewhere {x : UInt32} (common : ¬x.toNat < 0x100) (bank : ¬(0x400 ≤ x.toNat ∧ x.toNat < 0x800))
    (rings : ¬InRings x) : route x = .unmapped := by
  unfold InRings at rings
  unfold route
  dsimp only
  rw [dif_neg common, dif_neg bank, dif_neg (by omega), dif_neg (by omega)]

theorem route_unmapped {x : UInt32} (past : 0x8000 ≤ x.toNat) : route x = .unmapped :=
  route_elsewhere (by omega) (by omega) fun rings => absurd rings.2 (by omega)

theorem route_inRings {x : UInt32} (h : InRings x) :
    (∃ s, route x = .tx s (RingOffset.ofNat x.toNat) ∧ 0x4000 + s.val * ringSize = x.toNat - x.toNat % ringSize) ∨
    ∃ s, route x = .rx s (RingOffset.ofNat x.toNat) ∧ 0x6000 + s.val * ringSize = x.toNat - x.toNat % ringSize := by
  obtain ⟨low, high⟩ := h
  by_cases tx : x.toNat < 0x6000
  · refine .inl ⟨⟨(x.toNat - 0x4000) / 0x800, by simp only [socketCount]; omega⟩, ?_, by simp only [ringSize]; omega⟩
    unfold route
    dsimp only
    rw [dif_neg (by omega), dif_neg (by omega), dif_pos ⟨low, tx⟩]
  · refine .inr ⟨⟨(x.toNat - 0x6000) / 0x800, by simp only [socketCount]; omega⟩, ?_, by simp only [ringSize]; omega⟩
    unfold route
    dsimp only
    rw [dif_neg (by omega), dif_neg (by omega), dif_neg (by omega), dif_pos (by omega)]

/-! ## Plain storage -/

/-- Register cells that keep what is written and have no effect on anything else. -/
def plainCell (cell : Nat) : Bool :=
  cell < bankSize && !Engine.readOnly cell && cell != Cell.command && cell != Cell.interrupt &&
    cell != Cell.txWrite && cell != Cell.txWrite + 1 && cell != Cell.rxRead

/-- Targets that keep what is written and have no effect on anything else. -/
def Target.Plain : Target → Prop
  | .common i => i ≠ commonMode
  | .register _ cell => plainCell cell = true
  | .tx _ _ | .rx _ _ => True
  | .unmapped => False

instance : DecidablePred Target.Plain := fun t =>
  match t with
  | .common i => inferInstanceAs (Decidable (i ≠ commonMode))
  | .register _ cell => inferInstanceAs (Decidable (plainCell cell = true))
  | .tx _ _ | .rx _ _ => inferInstanceAs (Decidable True)
  | .unmapped => inferInstanceAs (Decidable False)

theorem plain_inRings {x : UInt32} (h : InRings x) : (route x).Plain := by
  rcases route_inRings h with ⟨s, target, -⟩ | ⟨s, target, -⟩ <;> rw [target] <;> trivial

theorem Target.Plain.mapped {t : Target} (h : t.Plain) : t ≠ .unmapped := by
  rintro rfl
  exact h

namespace AddressSpace

/-- What a read of a target gives. -/
def byteAt (m : AddressSpace) : Target → UInt8
  | .common i => m.common.get i
  | .register s cell => (m.sockets.get s).readRegister cell.val
  | .tx s o => (m.sockets.get s).tx.get o
  | .rx s o => (m.sockets.get s).rx.get o
  | .unmapped => 0

theorem read_eq_byteAt (m : AddressSpace) (addr : UInt32) : m.read addr = m.byteAt (route addr) := by
  unfold read byteAt
  cases route addr <;> rfl

/-- A byte put at a plain target. -/
def put (m : AddressSpace) (t : Target) (value : UInt8) : AddressSpace :=
  match t with
  | .common i => m.setCommon i value
  | .register s cell => m.setSocket s { m.sockets.get s with regs := (m.sockets.get s).regs.set cell value }
  | .tx s o => m.setSocket s ((m.sockets.get s).storeTx o value)
  | .rx s o => m.setSocket s ((m.sockets.get s).storeRx o value)
  | .unmapped => m

theorem model_put (m : AddressSpace) (t : Target) (value : UInt8) : (m.put t value).model = m.model := by
  cases t <;> rfl

theorem store_plain (e : Engine) {cell : Nat} (plain : plainCell cell = true) (value : UInt8) :
    e.store cell value = { e with regs := e.regs.set cell value } := by
  simp only [plainCell, Bool.and_eq_true, bne_iff_ne, Bool.not_eq_true', decide_eq_true_eq] at plain
  obtain ⟨⟨⟨⟨⟨⟨-, readable⟩, -⟩, interrupt⟩, high⟩, low⟩, pointer⟩ := plain
  rw [Engine.store, if_neg interrupt, if_neg (by simp [readable]), if_neg high, if_neg low, if_neg pointer]

variable {ν : Type} [NetHost ν]

theorem write_plain (m : AddressSpace) {addr : UInt32} (plain : (route addr).Plain) (value : UInt8) (net : ν) :
    m.write addr value net = (m.put (route addr) value, net) := by
  cases target : route addr with
  | common i =>
    rw [target] at plain
    unfold write
    rw [target]
    dsimp only
    rw [if_neg fun h => plain h.1]
    rfl
  | register s cell =>
    rw [target] at plain
    have ordinary : cell.val ≠ Cell.command := by
      intro command
      rw [Target.Plain, command] at plain
      exact absurd plain (by decide)
    have run : (m.sockets.get s).writeRegister m.config cell.val value net =
        ({ m.sockets.get s with regs := (m.sockets.get s).regs.set cell value }, net) := by
      rw [Engine.writeRegister, if_neg ordinary, store_plain _ plain]
      rfl
    rw [m.write_register target, run]
    rfl
  | tx s o | rx s o | unmapped =>
    unfold write
    rw [target]
    rfl

theorem socket_setSocket_of_ne (m : AddressSpace) {n n' : Fin socketCount} (e : Engine) (ne : n' ≠ n) :
    (m.setSocket n e).sockets.get n' = m.sockets.get n' :=
  Vector.getElem_set_ne n.isLt n'.isLt fun same => ne (Fin.ext same.symm)

theorem common_setCommon (m : AddressSpace) (i j : Fin commonSize) (value : UInt8) :
    (m.setCommon i value).common.get j = if j = i then value else m.common.get j := by
  by_cases same : j = i
  · subst same
    rw [if_pos rfl]
    exact Vector.getElem_set_self j.isLt
  · rw [if_neg same]
    exact Vector.getElem_set_ne i.isLt j.isLt fun eq => same (Fin.ext eq.symm)

/-- What is read after one cell of a bank has been replaced, if it is one that is read as it is kept. -/
theorem readRegister_set_cell (e : Engine) {cell : Nat} (command : cell ≠ Cell.command) (status : cell ≠ Cell.status)
    (other : Nat) (value : UInt8) :
    Engine.readRegister { e with regs := e.regs.set cell value } other =
      if other = cell ∧ cell < bankSize then value else e.readRegister other := by
  unfold Engine.readRegister
  by_cases same : other = cell
  · subst same
    rw [if_neg command, if_neg status, if_neg command, if_neg status]
    split
    next populated => exact RegisterBank.get_set_self _ _ populated.2
    next gap =>
      have past : bankSize ≤ other := Nat.not_lt.mp fun populated => gap ⟨rfl, populated⟩
      rw [RegisterBank.get_of_le _ past, RegisterBank.get_of_le _ past]
  · rw [if_neg (c := other = cell ∧ _) fun h => same h.1]
    congr 2
    exact RegisterBank.get_set_of_ne _ _ same

theorem readRegister_set (e : Engine) {cell : Nat} (plain : plainCell cell = true) (other : Nat) (value : UInt8) :
    Engine.readRegister { e with regs := e.regs.set cell value } other =
      if other = cell then value else e.readRegister other := by
  simp only [plainCell, Engine.readOnly, Bool.and_eq_true, bne_iff_ne, Bool.not_eq_true', decide_eq_true_eq,
    Bool.or_eq_false_iff, beq_eq_false_iff_ne] at plain
  obtain ⟨⟨⟨⟨⟨⟨populated, ⟨⟨⟨⟨⟨⟨status, -⟩, -⟩, -⟩, -⟩, -⟩, -⟩⟩, command⟩, -⟩, -⟩, -⟩, -⟩ := plain
  rw [readRegister_set_cell e command status]
  simp only [populated, and_true]

/-- What a change of one common register changes. -/
theorem byteAt_setCommon (m : AddressSpace) (i : Fin commonSize) (value : UInt8) (t : Target) :
    (m.setCommon i value).byteAt t = if t = .common i then value else m.byteAt t := by
  cases t with
  | common j =>
    rw [byteAt, common_setCommon]
    simp only [Target.common.injEq]
    rfl
  | register | tx | rx | unmapped => rfl

/-- What a change of one socket changes. -/
theorem byteAt_setSocket (m : AddressSpace) (s : Fin socketCount) (e : Engine) (t : Target) :
    (m.setSocket s e).byteAt t =
      match t with
      | .register s' cell => if s' = s then e.readRegister cell.val else m.byteAt t
      | .tx s' o => if s' = s then e.tx.get o else m.byteAt t
      | .rx s' o => if s' = s then e.rx.get o else m.byteAt t
      | t => m.byteAt t := by
  cases t with
  | common | unmapped => rfl
  | register s' _ | tx s' _ | rx s' _ =>
    dsimp only [byteAt]
    split
    next same => rw [same, socket_setSocket_self]
    next ne => rw [socket_setSocket_of_ne _ _ ne]

/-- **Plain storage**: the target has the byte, and everything else is as before. -/
theorem byteAt_put (m : AddressSpace) {t : Target} (plain : t.Plain) (value : UInt8) (t' : Target) :
    (m.put t value).byteAt t' = if t' = t then value else m.byteAt t' := by
  have ringCell (r : Ring) (o o' : RingOffset) : (r.set o value).get o' = if o' = o then value else r.get o' := by
    split
    next same => rw [same, Ring.get_set_self]
    next ne => exact Ring.get_set_of_ne _ _ ne
  cases t with
  | common i => exact m.byteAt_setCommon i value t'
  | register s cell =>
    rw [put, byteAt_setSocket]
    cases t' with
    | register s' _ | tx s' _ | rx s' _ =>
      by_cases same : s' = s
      · simp only [same, Target.register.injEq, reduceCtorEq, readRegister_set _ plain, Fin.ext_iff, true_and, if_true,
          if_false]
        rfl
      · simp only [same, Target.register.injEq, reduceCtorEq, false_and, if_false]
    | common | unmapped => simp only [reduceCtorEq, if_false]
  | tx s o | rx s o =>
    rw [put, byteAt_setSocket]
    cases t' with
    | register s' _ | tx s' _ | rx s' _ =>
      by_cases same : s' = s
      · simp only [same, Target.tx.injEq, Target.rx.injEq, reduceCtorEq, Engine.storeTx, Engine.storeRx, ringCell,
          true_and, if_true, if_false]
        rfl
      · simp only [same, Target.tx.injEq, Target.rx.injEq, reduceCtorEq, false_and, if_false]
    | common | unmapped => simp only [reduceCtorEq, if_false]
  | unmapped => exact absurd rfl plain.mapped

/-! ## Walks -/

/-- Bytes put at the targets of a walk, from its start on. -/
def putAll (m : AddressSpace) (walk : Nat → Target) : Bytes → AddressSpace
  | [] => m
  | b :: bs => (m.put (walk 0) b).putAll (fun j => walk (j + 1)) bs

theorem model_putAll (m : AddressSpace) (walk : Nat → Target) (data : Bytes) : (m.putAll walk data).model = m.model := by
  induction data generalizing m walk with
  | nil => rfl
  | cons b bs ih => exact (ih _ _).trans (m.model_put _ b)

/-- What the walk does not come to stays the same. -/
theorem byteAt_putAll_of_ne (m : AddressSpace) {walk : Nat → Target} {data : Bytes}
    (plain : ∀ j < data.length, (walk j).Plain) {t : Target} (apart : ∀ j < data.length, walk j ≠ t) :
    (m.putAll walk data).byteAt t = m.byteAt t := by
  induction data generalizing m walk with
  | nil => rfl
  | cons b bs ih =>
    have rest := ih (m.put (walk 0) b) (fun j lt => plain (j + 1) (Nat.succ_lt_succ lt))
      (fun j lt => apart (j + 1) (Nat.succ_lt_succ lt))
    rw [putAll, rest, byteAt_put m (plain 0 (Nat.succ_pos _)), if_neg fun same => apart 0 (Nat.succ_pos _) same.symm]

/-- **A walk that never comes back leaves its bytes where it went.** -/
theorem byteAt_putAll_self (m : AddressSpace) {walk : Nat → Target} {data : Bytes}
    (plain : ∀ j < data.length, (walk j).Plain) (apart : ∀ j k, j < k → k < data.length → walk k ≠ walk j)
    {j : Nat} (lt : j < data.length) : (m.putAll walk data).byteAt (walk j) = data[j] := by
  induction data generalizing m walk j with
  | nil => exact absurd lt (Nat.not_lt_zero j)
  | cons b bs ih =>
    have plain' (j : Nat) (lt : j < bs.length) : (walk (j + 1)).Plain := plain (j + 1) (Nat.succ_lt_succ lt)
    rw [putAll]
    cases j with
    | zero =>
      rw [byteAt_putAll_of_ne _ plain' fun k lt => apart 0 (k + 1) (Nat.succ_pos k) (Nat.succ_lt_succ lt),
        byteAt_put m (plain 0 (Nat.succ_pos _)), if_pos rfl, List.getElem_cons_zero]
    | succ j =>
      exact ih (m.put (walk 0) b) plain'
        (fun j k lt lt' => apart (j + 1) (k + 1) (Nat.succ_lt_succ lt) (Nat.succ_lt_succ lt'))
        (Nat.lt_of_succ_lt_succ lt)

/-- A burst to plain storage puts its bytes on its walk. -/
theorem writeBurstFrom_plain (m : AddressSpace) (start : UInt32) (i : Nat) {data : Bytes}
    (plain : ∀ j < data.length, (route (burstAddr start (i + j))).Plain) (net : ν) :
    m.writeBurstFrom start i data net = (m.putAll (fun j => route (burstAddr start (i + j))) data, net) := by
  induction data generalizing m i with
  | nil => rfl
  | cons b bs ih =>
    have later (j : Nat) : i + (j + 1) = i + 1 + j := by omega
    have plain' (j : Nat) (lt : j < bs.length) : (route (burstAddr start (i + 1 + j))).Plain :=
      later j ▸ plain (j + 1) (Nat.succ_lt_succ lt)
    have first : (route (burstAddr start i)).Plain := plain 0 (Nat.succ_pos _)
    have walk : (fun j => route (burstAddr start (i + (j + 1)))) = fun j => route (burstAddr start (i + 1 + j)) :=
      funext fun j => by rw [later]
    rw [writeBurstFrom, bind_run, m.write_plain first, putAll, walk]
    exact ih _ _ plain'

theorem writeBurst_plain (m : AddressSpace) (start : UInt32) {data : Bytes}
    (plain : ∀ j < data.length, (route (burstAddr start j)).Plain) (net : ν) :
    m.writeBurst start data net = (m.putAll (fun j => route (burstAddr start j)) data, net) := by
  have run := m.writeBurstFrom_plain start 0 (fun j lt => (Nat.zero_add j).symm ▸ plain j lt) net
  simp only [Nat.zero_add] at run
  exact run

end AddressSpace

end EtherChip

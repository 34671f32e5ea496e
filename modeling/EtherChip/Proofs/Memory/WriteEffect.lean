import EtherChip.Proofs.Memory.Storage
import EtherChip.Proofs.Socket.Flood

/-!
# What a write changes

The address map in plain numbers: which addresses a socket has (`Owns`), what an address reads back as
after a write (`stored`), and where else a write shows (`Reaches`). `write_effect` is the law of a single
write: it holds of every memory and every host, and whatever a command does stays in its socket.
-/
namespace EtherChip

/-! ## The map in numbers -/

/-- The addresses of a socket: its register bank and its two rings. -/
def Owns (s : Fin socketCount) (x : UInt32) : Prop :=
  (0x400 + 0x100 * s.val ≤ x.toNat ∧ x.toNat < 0x500 + 0x100 * s.val) ∨
  (0x4000 + 0x800 * s.val ≤ x.toNat ∧ x.toNat < 0x4800 + 0x800 * s.val) ∨
  (0x6000 + 0x800 * s.val ≤ x.toNat ∧ x.toNat < 0x6800 + 0x800 * s.val)

instance (s : Fin socketCount) : DecidablePred (Owns s) := fun _ => inferInstanceAs (Decidable (_ ∨ _))

/-- What a register cell reads back as: commands are never kept, ones clear interrupt flags, high bytes of
pointers keep three bits, and some cells keep what they have. -/
def storedCell (cell : Nat) (old value : UInt8) : UInt8 :=
  if cell = 0x01 then 0
  else if cell = 0x02 then old &&& (~~~value ||| 0xE0)
  else if cell = 0x24 ∨ cell = 0x28 then value &&& 7
  else if cell = 0x03 ∨ (0x20 ≤ cell ∧ cell ≤ 0x23) ∨ cell = 0x26 ∨ cell = 0x27 ∨ 0x30 ≤ cell then old
  else value

/-- What an address reads back as after a value has been written to it. -/
def stored (a : UInt32) (old value : UInt8) : UInt8 :=
  if a.toNat < 0x100 ∨ (0x4000 ≤ a.toNat ∧ a.toNat < 0x8000) then value
  else if 0x400 ≤ a.toNat ∧ a.toNat < 0x800 then storedCell (a.toNat % 0x100) old value
  else old

/-- Where else a write shows: a command anywhere in its socket, and a byte of the transmit write position
in the free size of its socket. -/
def Reaches (a x : UInt32) : Prop :=
  ∃ s : Fin socketCount,
    (a.toNat = 0x401 + 0x100 * s.val ∧ Owns s x) ∨
    ((a.toNat = 0x424 + 0x100 * s.val ∨ a.toNat = 0x425 + 0x100 * s.val) ∧
      (x.toNat = 0x420 + 0x100 * s.val ∨ x.toNat = 0x421 + 0x100 * s.val))

instance (a x : UInt32) : Decidable (Reaches a x) := inferInstanceAs (Decidable (∃ _ : Fin socketCount, _))

/-- A write reaches only what the socket that it goes to has. -/
theorem Reaches.owns {a x : UInt32} (h : Reaches a x) : ∃ s, Owns s a ∧ Owns s x := by
  obtain ⟨s, ⟨command, owned⟩ | ⟨pointer, size⟩⟩ := h
  · exact ⟨s, .inl (by omega), owned⟩
  · exact ⟨s, .inl (by omega), .inl (by omega)⟩

theorem Owns.unique {s s' : Fin socketCount} {x : UInt32} (h : Owns s x) (h' : Owns s' x) : s = s' := by
  have := s.isLt
  have := s'.isLt
  unfold Owns socketCount at *
  exact Fin.ext (by omega)

theorem Owns.not_common {s : Fin socketCount} {x : UInt32} (h : Owns s x) : ¬x.toNat < 0x100 := by
  unfold Owns at h
  omega

/-- The socket that a target is in. -/
def Target.socket? : Target → Option (Fin socketCount)
  | .register s _ | .tx s _ | .rx s _ => some s
  | .common _ | .unmapped => none

theorem socket?_route {s : Fin socketCount} {x : UInt32} : (route x).socket? = some s ↔ Owns s x := by
  have := s.isLt
  unfold route Owns
  dsimp only
  simp only [socketCount] at this
  split
  · simp only [Target.socket?, reduceCtorEq, false_iff]
    omega
  · split
    · simp only [Target.socket?, Option.some.injEq, Fin.ext_iff]
      omega
    · split
      · simp only [Target.socket?, Option.some.injEq, Fin.ext_iff]
        omega
      · split
        · simp only [Target.socket?, Option.some.injEq, Fin.ext_iff]
          omega
        · simp only [Target.socket?, reduceCtorEq, false_iff]
          omega

/-! ## A register cell -/

namespace Engine

theorem readRegister_showFree (e : Engine) {cell : Nat} (apart : cell ≠ Cell.txFree ∧ cell ≠ Cell.txFree + 1) :
    e.showFree.readRegister cell = e.readRegister cell := by
  unfold readRegister showFree
  dsimp only
  rw [RegisterBank.get_setWord_of_ne _ _ apart.1 apart.2]

theorem rings_store (e : Engine) (cell : Nat) (value : UInt8) :
    (e.store cell value).tx = e.tx ∧ (e.store cell value).rx = e.rx := by
  unfold store
  split
  · exact ⟨rfl, rfl⟩
  · split
    · exact ⟨rfl, rfl⟩
    · split
      · exact ⟨rfl, rfl⟩
      · split
        · exact ⟨rfl, rfl⟩
        · split <;> exact ⟨rfl, rfl⟩

theorem storedCell_kept {cell : Nat} (kept : readOnly cell = true ∨ bankSize ≤ cell) (old value : UInt8) :
    storedCell cell old value = old := by
  simp only [readOnly, Bool.or_eq_true, beq_iff_eq, Cell.status, Cell.txFree, Cell.txRead, Cell.rxReceived, bankSize]
    at kept
  unfold storedCell
  rw [if_neg (by omega), if_neg (by omega), if_neg (by omega), if_pos (by omega)]

theorem storedCell_plain {cell : Nat} (plain : plainCell cell = true) (old value : UInt8) :
    storedCell cell old value = value := by
  simp only [plainCell, readOnly, Bool.and_eq_true, bne_iff_ne, Bool.not_eq_true', decide_eq_true_eq,
    Bool.or_eq_false_iff, beq_eq_false_iff_ne, bankSize, Cell.status, Cell.txFree, Cell.txRead, Cell.rxReceived,
    Cell.command, Cell.interrupt, Cell.txWrite, Cell.rxRead] at plain
  unfold storedCell
  rw [if_neg (by omega), if_neg (by omega), if_neg (by omega), if_neg (by omega)]

/-- Some cells ignore what is written. -/
theorem readRegister_store_kept (e : Engine) {cell : Nat} (kept : readOnly cell = true ∨ bankSize ≤ cell)
    (value : UInt8) (other : Nat) : (e.store cell value).readRegister other = e.readRegister other := by
  rcases kept with readable | gap
  · have quiet : cell ≠ Cell.interrupt := by
      rintro rfl
      exact absurd readable (by decide)
    rw [store, if_neg quiet, if_pos readable]
  · have same : e.store cell value = { e with regs := e.regs.set cell value } := by
      have written : ¬readOnly cell = true := by
        simp only [bankSize] at gap
        simp only [readOnly, Bool.or_eq_true, beq_iff_eq, Cell.status, Cell.txFree, Cell.txRead, Cell.rxReceived]
        omega
      have past {named : Nat} (low : named < bankSize) : cell ≠ named := Nat.ne_of_gt (Nat.lt_of_lt_of_le low gap)
      rw [store, if_neg (past (by decide)), if_neg written, if_neg (past (by decide)), if_neg (past (by decide)),
        if_neg (past (by decide))]
    have command : cell ≠ Cell.command := fun command => absurd (command ▸ gap) (by decide)
    have status : cell ≠ Cell.status := fun status => absurd (status ▸ gap) (by decide)
    rw [same, AddressSpace.readRegister_set_cell e command status, if_neg fun h => absurd h.2 (Nat.not_lt.mpr gap)]

/-- What a bank reads as after a write to a cell other than the command. -/
theorem readRegister_store (e : Engine) {cell : Nat} (ordinary : cell ≠ Cell.command) (value : UInt8) {other : Nat}
    (apart : ¬((cell = 0x24 ∨ cell = 0x25) ∧ (other = 0x20 ∨ other = 0x21))) :
    (e.store cell value).readRegister other =
      if other = cell then storedCell cell (e.readRegister cell) value else e.readRegister other := by
  have set (value : UInt8) (status : cell ≠ Cell.status) (populated : cell < bankSize) :
      readRegister { e with regs := e.regs.set cell value } other = if other = cell then value else e.readRegister other := by
    rw [AddressSpace.readRegister_set_cell e ordinary status]
    simp only [populated, and_true]
  have sized (pointer : cell = 0x24 ∨ cell = 0x25) : other ≠ Cell.txFree ∧ other ≠ Cell.txFree + 1 :=
    ⟨fun size => apart ⟨pointer, .inl size⟩, fun size => apart ⟨pointer, .inr size⟩⟩
  by_cases kept : readOnly cell = true ∨ bankSize ≤ cell
  · rw [readRegister_store_kept e kept, storedCell_kept kept]
    split
    next same => rw [same]
    next => rfl
  obtain ⟨written, populated⟩ := not_or.mp kept
  by_cases interrupt : cell = Cell.interrupt
  · subst interrupt
    rw [store, if_pos rfl]
    exact set _ (by decide) (by decide)
  by_cases high : cell = Cell.txWrite
  · subst high
    rw [store, if_neg interrupt, if_neg written, if_pos rfl, readRegister_showFree _ (sized (.inl rfl))]
    exact set _ (by decide) (by decide)
  by_cases low : cell = Cell.txWrite + 1
  · subst low
    rw [store, if_neg interrupt, if_neg written, if_neg high, if_pos rfl, readRegister_showFree _ (sized (.inr rfl))]
    exact set _ (by decide) (by decide)
  by_cases pointer : cell = Cell.rxRead
  · subst pointer
    rw [store, if_neg interrupt, if_neg written, if_neg high, if_neg low, if_pos rfl]
    exact set _ (by decide) (by decide)
  have plain : plainCell cell = true := by
    simp only [plainCell, Bool.and_eq_true, bne_iff_ne, Bool.not_eq_true', decide_eq_true_eq]
    exact ⟨⟨⟨⟨⟨⟨Nat.lt_of_not_le populated, (Bool.not_eq_true _).mp written⟩, ordinary⟩, interrupt⟩, high⟩, low⟩, pointer⟩
  rw [AddressSpace.store_plain e plain, AddressSpace.readRegister_set e plain, storedCell_plain plain]

end Engine

/-! ## A write -/

namespace AddressSpace

/-- A change of one socket stays in what the socket has. -/
theorem byteAt_setSocket_of_apart (m : AddressSpace) {s : Fin socketCount} (e : Engine) {t : Target}
    (apart : t.socket? ≠ some s) : (m.setSocket s e).byteAt t = m.byteAt t := by
  rw [byteAt_setSocket]
  cases t with
  | common | unmapped => rfl
  | register s' _ | tx s' _ | rx s' _ => exact if_neg fun same => apart (congrArg some same)

/-- A write to a cell other than the command, anywhere but in the free size that a pointer byte changes. -/
theorem byteAt_store (m : AddressSpace) {s : Fin socketCount} {cell : Fin 0x100} (ordinary : cell.val ≠ Cell.command)
    (value : UInt8) {t : Target}
    (apart : ∀ other, t = .register s other →
      ¬((cell.val = 0x24 ∨ cell.val = 0x25) ∧ (other.val = 0x20 ∨ other.val = 0x21))) :
    (m.setSocket s ((m.sockets.get s).store cell.val value)).byteAt t =
      if t = .register s cell then storedCell cell.val (m.byteAt t) value else m.byteAt t := by
  obtain ⟨tx, rx⟩ := (m.sockets.get s).rings_store cell.val value
  rw [byteAt_setSocket]
  cases t with
  | common | unmapped => rfl
  | tx s' o =>
    dsimp only
    rw [if_neg (c := Target.tx s' o = _) Target.noConfusion, tx]
    split
    next same => rw [same]; rfl
    next => rfl
  | rx s' o =>
    dsimp only
    rw [if_neg (c := Target.rx s' o = _) Target.noConfusion, rx]
    split
    next same => rw [same]; rfl
    next => rfl
  | register s' other =>
    by_cases same : s' = s
    · subst same
      dsimp only
      rw [if_pos rfl, Engine.readRegister_store _ ordinary value (apart other rfl)]
      simp only [Target.register.injEq, true_and, Fin.ext_iff]
      split
      next here => rw [← here]; rfl
      next => rfl
    · dsimp only
      rw [if_neg same, if_neg fun named => same (Target.register.inj named).1]

variable {ν : Type} [NetHost ν]

theorem read_write_register (m : AddressSpace) {a : UInt32} {s : Fin socketCount} {cell : Fin 0x100}
    (target : route a = .register s cell) (value : UInt8) (net : ν) {x : UInt32} (silent : x ≠ a → ¬Reaches a x) :
    (m.write a value net).1.read x = if x = a then storedCell cell.val (m.read a) value else m.read x := by
  have here := toNat_of_register target
  have mapped : route a ≠ .unmapped := by
    rw [target]
    exact Target.noConfusion
  rw [m.write_register target, read_eq_byteAt]
  dsimp only
  by_cases command : cell.val = Cell.command
  · split
    next same =>
      rw [same, target, byteAt_setSocket]
      dsimp only
      rw [if_pos rfl, command]
      rfl
    next ne =>
      -- a command reaches everything that its socket has
      have outside : (route x).socket? ≠ some s := by
        intro inside
        simp only [Cell.command] at command
        exact silent ne ⟨s, .inl ⟨by omega, socket?_route.mp inside⟩⟩
      rw [byteAt_setSocket_of_apart _ _ outside, m.read_eq_byteAt]
  · have stored : ((m.sockets.get s).writeRegister m.config cell.val value net).1 =
        (m.sockets.get s).store cell.val value := by
      rw [Engine.writeRegister, if_neg command]
      rfl
    rw [stored, byteAt_store m command value, ← target, m.read_eq_byteAt, m.read_eq_byteAt]
    · simp only [route_eq_iff mapped]
      split
      next same => rw [same]
      next => rfl
    · rintro other named ⟨pointer, size⟩
      have there := toNat_of_register named
      refine silent ?_ ⟨s, .inr ⟨by omega, by omega⟩⟩
      rintro rfl
      omega

theorem write_common (m : AddressSpace) {a : UInt32} (common : a.toNat < 0x100) {value : UInt8}
    (plain : ¬(a = 0 ∧ 0x80 ≤ value)) (net : ν) :
    m.write a value net = (m.setCommon ⟨a.toNat, common⟩ value, net) := by
  have stays : ¬((⟨a.toNat, common⟩ : Fin commonSize) = commonMode ∧ asksReset value) := by
    rintro ⟨mode, asks⟩
    have zero : a.toNat = 0 := congrArg Fin.val mode
    exact plain ⟨UInt32.toNat_inj.mp zero, of_decide_eq_true asks⟩
  unfold write
  rw [route_common common]
  dsimp only
  rw [if_neg stays]
  rfl

/-- What is read after a write that does not reset the chip, wherever it does not reach unseen. -/
theorem read_write (m : AddressSpace) {a : UInt32} {value : UInt8} (plain : ¬(a = 0 ∧ 0x80 ≤ value)) (net : ν)
    {x : UInt32} (silent : x ≠ a → ¬Reaches a x) :
    (m.write a value net).1.read x = if x = a then stored a (m.read a) value else m.read x := by
  by_cases common : a.toNat < 0x100
  · have kept : stored a (m.read a) value = value := by rw [stored, if_pos (.inl common)]
    have target := route_common common
    have mapped : route a ≠ .unmapped := by
      rw [target]
      exact Target.noConfusion
    rw [m.write_common common plain, read_eq_byteAt, m.read_eq_byteAt x, byteAt_setCommon, kept, ← target]
    simp only [route_eq_iff mapped]
  by_cases bank : 0x400 ≤ a.toNat ∧ a.toNat < 0x800
  · obtain ⟨s, cell, target, cell_eq, -⟩ := route_bank bank
    have kept : stored a (m.read a) value = storedCell cell.val (m.read a) value := by
      rw [stored, if_neg (by omega), if_pos bank, cell_eq]
    rw [m.read_write_register target value net silent, kept]
  by_cases rings : InRings a
  · have kept : stored a (m.read a) value = value := by rw [stored, if_pos (.inr rings)]
    have stays := plain_inRings rings
    rw [m.write_plain stays, read_eq_byteAt, m.read_eq_byteAt x, byteAt_put m stays, kept]
    simp only [route_eq_iff stays.mapped]
  · have target := route_elsewhere common bank rings
    have ignored : m.write a value net = (m, net) := by
      unfold write
      rw [target]
      rfl
    have kept : stored a (m.read a) value = m.read a := by
      unfold InRings at rings
      rw [stored, if_neg (not_or.mpr ⟨common, rings⟩), if_neg bank]
    rw [ignored, kept]
    split
    next same => rw [same]
    next => rfl

/-- **The law of a write.** Unless it resets the chip, a write leaves the byte that its address keeps, and
changes nothing else than what it reaches: the free size of the socket of which it moves the transmit
write position, and with a command whatever the same socket has. So no write reaches another socket or,
from a socket, the common registers. -/
theorem write_effect (m : AddressSpace) (a : UInt32) (value : UInt8) (plain : ¬(a = 0 ∧ 0x80 ≤ value)) (net : ν) :
    let m' := (m.write a value net).1
    m'.read a = stored a (m.read a) value ∧
    (∀ x, x ≠ a → ¬Reaches a x → m'.read x = m.read x) ∧
    (∀ s, ¬Owns s a → ∀ x, Owns s x → m'.read x = m.read x) ∧
    ((∃ s, Owns s a) → ∀ x, x.toNat < 0x100 → m'.read x = m.read x) := by
  intro m'
  have frame (x : UInt32) (ne : x ≠ a) (silent : ¬Reaches a x) : m'.read x = m.read x :=
    (m.read_write plain net fun _ => silent).trans (if_neg ne)
  refine ⟨?_, frame, fun s other x owned => ?_, fun ⟨s, owned⟩ x common => ?_⟩
  · exact (m.read_write plain net fun ne => absurd rfl ne).trans (if_pos rfl)
  · refine frame x (fun same => other (same ▸ owned)) fun reached => ?_
    obtain ⟨s', owns, has⟩ := reached.owns
    exact other (has.unique owned ▸ owns)
  · refine frame x (fun same => owned.not_common (same ▸ common)) fun reached => ?_
    obtain ⟨s', -, has⟩ := reached.owns
    exact has.not_common common

/-- A memory with socket 1 in stream mode. -/
def streamMode : AddressSpace := ((powerOn .w5100 {}).write 0x500 Protocol.tcp.code Flood.flood).1

theorem write_effect_open :
    let m' := (streamMode.write 0x501 Command.openSocket.code Flood.flood).1
    m'.read 0x501 = 0 ∧ m'.read 0x503 = Status.init.code ∧ streamMode.read 0x503 = Status.closed.code ∧
    m'.read 0x600 = streamMode.read 0x600 ∧ m'.read 0x403 = streamMode.read 0x403 ∧
    m'.read 0x17 = streamMode.read 0x17 := by
  obtain ⟨command, frame, sockets, common⟩ :=
    streamMode.write_effect 0x501 Command.openSocket.code (by decide) Flood.flood
  exact ⟨command, by decide +kernel, by decide +kernel, frame 0x600 (by decide) (by decide),
    sockets 0 (by decide) 0x403 (by decide), common ⟨1, by decide⟩ 0x17 (by decide)⟩

end AddressSpace

end EtherChip

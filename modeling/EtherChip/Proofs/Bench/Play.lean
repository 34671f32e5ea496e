import EtherChip.Bench.Demo
import EtherChip.Proofs.Bus.RingBurst
import EtherChip.Proofs.Bus.SettledAccess
import EtherChip.Proofs.Socket.Ownership
import EtherChip.Proofs.Socket.Promise

/-!
# Acting on socket 0 over the bus

The demos use one socket of a chip on which nothing else goes on. Of such a chip only that socket and the
host matter (`Scene`), and all of the framing, the bits and the steps in between comes down to what the
socket does: an action over the bus plays (`Plays`) from one scene to the next, whichever the model is and
whatever the rest of the memory holds. There is one rule for each kind of access, and actions one after
the other play one after the other (`Plays.bind`).

The wait for a command to be taken needs no patience: it ends because the command register always shows zero
(`Completes.awaitAccepted`). With it all that the bench does comes to an end, with any patience (`Completes`).
-/
namespace EtherChip

open AddressSpace

variable {ν : Type} [NetHost ν]

/-! ## A socket for which nothing waits -/

namespace Engine

/-- The host has nothing for the socket: it is closed, or a datagram socket with no datagram waiting. -/
def Idles (e : Engine) (net : ν) : Prop :=
  e.status = .closed ∨ e.status = .udpReady ∧ ∀ room, e.host.receiveDatagram room net = (.ok .idle, net)

variable {e e' : Engine} {net : ν}

theorem Idles.of_owner (h : e.Idles net) (status : e'.status = e.status) (host : e'.host = e.host) : e'.Idles net := by
  unfold Idles
  rw [status, host]
  exact h

theorem Idles.poll (h : e.Idles net) : e.poll net = (e, net) := by
  rcases h with closed | ⟨ready, idle⟩
  · simp only [Engine.poll, closed]
    rfl
  · simp only [Engine.poll, ready, pollDatagram]
    rw [bind_run, idle]
    rfl

theorem Idles.still (h : e.Idles net) : e.Still (· = net) := by
  intro tx rx net' same
  subst same
  have idles : ({ e with tx := tx, rx := rx } : Engine).Idles net' := h.of_owner rfl rfl
  rw [idles.poll]
  exact ⟨rfl, rfl⟩

/-- Bytes are stored in register cells, one after the other. -/
def storeAll (e : Engine) (cell : Nat) : Bytes → Engine
  | [] => e
  | b :: bs => (e.store cell b).storeAll (cell + 1) bs

end Engine

theorem RingOffset.ofWord_succ (position : UInt16) : ofWord (position + 1) = (ofWord position).advance 1 :=
  ofWord_add position 1

namespace Bench

/-- What matters to a demo: the socket that it uses, and the host. -/
structure Scene (ν : Type) where
  socket : Engine
  host : ν

/-- A memory in which socket 0 is that of the scene, the other sockets are closed, and nothing waits. -/
structure Scene.In (s : Scene ν) (cfg : NetConfig) (m : AddressSpace) : Prop where
  config : m.config = cfg
  socket : m.sockets.get 0 = s.socket
  others : ∀ n ≠ 0, (m.sockets.get n).status = .closed
  idles : s.socket.Idles s.host

/-- A chip between transactions whose memory has the scene. -/
structure Scene.On (s : Scene ν) (cfg : NetConfig) (c : Chip) : Prop where
  rest : c.AtRest
  shown : s.In cfg c.memory

namespace Scene

variable {cfg : NetConfig} {e e' : Engine} {net net' : ν} {m : AddressSpace}

theorem In.still (h : Scene.In ⟨e, net⟩ cfg m) : m.Still (· = net) := by
  intro n
  by_cases first : n = 0
  · rw [first, h.socket]
    exact h.idles.still
  · exact Engine.Idles.still (.inl (h.others n first))

theorem On.ready {c : Chip} (h : Scene.On ⟨e, net⟩ cfg c) : c.Ready (· = net) net := ⟨h.rest, h.shown.still, rfl⟩

/-- Only socket 0 changes. -/
theorem In.setSocket (h : Scene.In ⟨e, net⟩ cfg m) (idles : e'.Idles net') :
    Scene.In ⟨e', net'⟩ cfg (m.setSocket 0 e') where
  config := h.config
  socket := m.socket_setSocket_self 0 e'
  others n ne := by
    rw [m.socket_setSocket_of_ne e' ne]
    exact h.others n ne
  idles := idles

/-! ## Addresses -/

theorem toUInt32_cellAddr {cell : Nat} (lt : cell < 0x100) : (cellAddr 0 cell).toUInt32 = registerAddr 0 cell := by
  rw [← UInt32.toNat_inj]
  simp only [cellAddr, registerAddr, UInt16.toNat_toUInt32, UInt32.toNat_toUInt16, UInt32.toNat_ofNat']
  omega

theorem toNat_cellAddr {cell : Nat} (le : cell ≤ 0x100) : (cellAddr 0 cell).toNat = 0x400 + cell := by
  simp only [cellAddr, registerAddr, UInt32.toNat_toUInt16, UInt32.toNat_ofNat']
  omega

theorem cellAddr_succ (cell : Nat) : cellAddr 0 cell + 1 = cellAddr 0 (cell + 1) := by
  rw [← UInt16.toNat_inj, UInt16.toNat_add]
  simp only [cellAddr, registerAddr, UInt32.toNat_toUInt16, UInt32.toNat_ofNat', UInt16.toNat_one]
  omega

theorem flatAddr_cellAddr {cell i : Nat} (lt : cell + i < 0x100) :
    flatAddr (cellAddr 0 cell) i = registerAddr 0 (cell + i) := by
  rw [flatAddr, toNat_cellAddr (by omega), registerAddr, Nat.zero_mul, Nat.add_zero, Nat.add_assoc]

theorem toUInt32_ringAddr (side : RingSide) (o : RingOffset) : (side.addr 0 o).toUInt16.toUInt32 = side.addr 0 o := by
  have inside := side.inRings_addr 0 o
  rw [InRings] at inside
  rw [← UInt32.toNat_inj, UInt16.toNat_toUInt32, UInt32.toNat_toUInt16]
  omega

/-! ## Single bytes -/

theorem In.write_register (h : Scene.In ⟨e, net⟩ cfg m) {cell : Nat} (lt : cell < 0x100) {b : UInt8}
    (run : e.writeRegister cfg cell b net = (e', net')) :
    m.write (cellAddr 0 cell).toUInt32 b net = (m.setSocket 0 e', net') := by
  have target : route (cellAddr 0 cell).toUInt32 = .register 0 ⟨cell, lt⟩ := by
    rw [toUInt32_cellAddr lt]
    exact route_registerAddr 0 ⟨cell, lt⟩
  unfold AddressSpace.write
  rw [target]
  dsimp only
  rw [bind_run, h.socket, h.config, run]
  rfl

theorem In.read_register (h : Scene.In ⟨e, net⟩ cfg m) {cell : Nat} (lt : cell < 0x100) :
    m.read (registerAddr 0 cell) = e.readRegister cell := by
  have target : route (registerAddr 0 cell) = .register 0 ⟨cell, lt⟩ := route_registerAddr 0 ⟨cell, lt⟩
  rw [read_eq_byteAt, target, byteAt, h.socket]

theorem In.write_tx (h : Scene.In ⟨e, net⟩ cfg m) (o : RingOffset) (b : UInt8) :
    m.write (RingSide.tx.addr 0 o) b net = (m.setSocket 0 (e.storeTx o b), net) := by
  unfold AddressSpace.write
  rw [RingSide.tx.route_addr]
  dsimp only [RingSide.target]
  rw [h.socket]
  rfl

theorem In.read_rx (h : Scene.In ⟨e, net⟩ cfg m) (o : RingOffset) : m.read (RingSide.rx.addr 0 o) = e.rx.get o := by
  rw [read_eq_byteAt, RingSide.rx.route_addr, RingSide.target, byteAt, h.socket]

/-- The common registers do not matter, the mode register with its reset apart. -/
theorem In.write_common (h : Scene.In ⟨e, net⟩ cfg m) {x : UInt32} (after : 0 < x.toNat) (before : x.toNat < commonSize)
    (b : UInt8) :
    ∃ m', m.write x b net = (m', net) ∧ Scene.In ⟨e, net⟩ cfg m' := by
  have target : route x = .common ⟨x.toNat, before⟩ := dif_pos before
  have other : ¬((⟨x.toNat, before⟩ : Fin commonSize) = commonMode ∧ asksReset b) := by
    intro ⟨mode, _⟩
    have zero : x.toNat = 0 := congrArg Fin.val mode
    omega
  refine ⟨m.setCommon ⟨x.toNat, before⟩ b, ?_, h.config, h.socket, h.others, h.idles⟩
  unfold AddressSpace.write
  rw [target]
  dsimp only
  rw [if_neg other]
  rfl

end Scene

/-! ## Actions -/

variable {α β : Type}

/-- From every chip with the first scene, an action has the given result and ends in a chip with the second. -/
def Plays (cfg : NetConfig) (s : Scene ν) (act : BusM ν α) (result : α) (s' : Scene ν) : Prop :=
  ∀ c, s.On cfg c → ∃ c', act c s.host = ((result, c'), s'.host) ∧ s'.On cfg c'

namespace Plays

variable {cfg : NetConfig} {s s' s'' : Scene ν}

theorem pure (result : α) : Plays cfg s (Pure.pure result) result s := fun c h => ⟨c, rfl, h⟩

theorem bind {act : BusM ν α} {next : α → BusM ν β} {a : α} {b : β} (first : Plays cfg s act a s')
    (rest : Plays cfg s' (next a) b s'') : Plays cfg s (act >>= next) b s'' := by
  intro c h
  obtain ⟨c', run, h'⟩ := first c h
  obtain ⟨c'', run', h''⟩ := rest c' h'
  refine ⟨c'', ?_, h''⟩
  rw [Master.bind_run, run]
  exact run'

/-- A flat write. -/
theorem write {addr : UInt16} {data : Bytes} (nonempty : data ≠ []) (bound : addr.toNat + data.length ≤ 0x8000)
    (short : InRings addr.toUInt32 → addr.toNat % ringSize + data.length ≤ ringSize) (fits : data.length ≤ maxBurst)
    (settles : ∀ m, s.In cfg m → ∃ m', Settles m s.host addr data m' s'.host ∧ s'.In cfg m') :
    Plays cfg s (Master.write addr data) () s' := by
  intro c h
  obtain ⟨m', settles, shown⟩ := settles c.memory h.shown
  obtain ⟨c', run, rfl, ready⟩ := h.ready.write_settles settles nonempty fits (by omega) short
  exact ⟨c', run, ready.rest, shown⟩

/-- A write of one byte. -/
theorem writeByte {addr : UInt16} {b : UInt8} (bound : addr.toNat < 0x8000)
    (written : ∀ m, s.In cfg m → ∃ m', m.write addr.toUInt32 b s.host = (m', s'.host) ∧ s'.In cfg m') :
    Plays cfg s (Master.writeByte addr b) () s' := by
  have one : ([b] : Bytes).length = 1 := rfl
  refine write (List.cons_ne_nil _ _) (by omega) (fun _ => ?_) (by rw [one]; decide) fun m h => ?_
  · have := Nat.mod_lt addr.toNat (show 0 < ringSize by decide)
    omega
  · obtain ⟨m', written, shown⟩ := written m h
    exact ⟨m', .byte written shown.still .done, shown⟩

/-- A flat read. -/
theorem read {addr : UInt16} {len : Nat} {values : Bytes} (bound : addr.toNat + len ≤ 0x8000)
    (reads : ∀ m, s.In cfg m → (List.range len).map (fun i => m.read (flatAddr addr i)) = values) :
    Plays cfg s (Master.read addr len) values s := by
  intro c h
  obtain ⟨c', run, same, ready⟩ := h.ready.read_flat addr (show addr.toNat + len ≤ 0x10000 by omega)
  rw [reads c.memory h.shown] at run
  exact ⟨c', run, ready.rest, same ▸ h.shown⟩

/-! ## Registers -/

variable {e e' : Engine} {net net' : ν}

/-- A write to one register cell does what the socket does with it. -/
theorem writeCell {cell : Nat} (lt : cell < bankSize) {b : UInt8}
    (run : e.writeRegister cfg cell b net = (e', net')) (idles : e'.Idles net') :
    Plays cfg ⟨e, net⟩ (Master.writeByte (cellAddr 0 cell) b) () ⟨e', net'⟩ := by
  have address := Scene.toNat_cellAddr (show cell ≤ 0x100 by simp only [bankSize] at lt; omega)
  refine writeByte (by simp only [bankSize] at lt; omega) fun m h => ?_
  have shown := h.setSocket idles
  exact ⟨_, h.write_register (by simp only [bankSize] at lt; omega) run, shown⟩

/-- Stores to neighbouring cells, none of which is the command cell. -/
theorem settles_stores {cell : Nat} {data : Bytes} (after : Cell.command < cell) (before : cell + data.length ≤ 0x100)
    {m : AddressSpace} (h : Scene.In ⟨e, net⟩ cfg m) :
    ∃ m', Settles m net (cellAddr 0 cell) data m' net ∧ Scene.In ⟨e.storeAll cell data, net⟩ cfg m' := by
  induction data generalizing e m cell with
  | nil => exact ⟨m, .done, h⟩
  | cons b bs ih =>
    rw [List.length_cons] at before
    have run : e.writeRegister cfg cell b net = (e.store cell b, net) := by
      rw [Engine.writeRegister, if_neg (by omega)]
      rfl
    have idles : (e.store cell b).Idles net :=
      h.idles.of_owner (Engine.status_store _ _ _) (Engine.host_store _ _ _)
    have stored : Scene.In ⟨e.store cell b, net⟩ cfg (m.setSocket 0 (e.store cell b)) := h.setSocket idles
    obtain ⟨m', rest, shown⟩ := ih (Nat.lt_succ_of_lt after) (by omega) stored
    rw [← Scene.cellAddr_succ] at rest
    exact ⟨m', .byte (h.write_register (by omega) run) stored.still rest, shown⟩

theorem writeCells {cell : Nat} {data : Bytes} (after : Cell.command < cell) (before : cell + data.length ≤ 0x100)
    (nonempty : data ≠ []) :
    Plays cfg ⟨e, net⟩ (Master.write (cellAddr 0 cell) data) () ⟨e.storeAll cell data, net⟩ := by
  have some := List.length_pos_iff.mpr nonempty
  have address := Scene.toNat_cellAddr (show cell ≤ 0x100 by omega)
  refine write nonempty (by omega) (fun inside => ?_) (by simp only [maxBurst]; omega) fun _ =>
    settles_stores after before
  rw [InRings, UInt16.toNat_toUInt32, address] at inside
  omega

theorem writeWord {cell : Nat} (after : Cell.command < cell) (before : cell + 2 ≤ 0x100) (w : UInt16) :
    Plays cfg ⟨e, net⟩ (Master.writeWord (cellAddr 0 cell) w) ()
      ⟨(e.store cell (highByte w)).store (cell + 1) (lowByte w), net⟩ :=
  writeCells after before (List.cons_ne_nil _ _)

theorem readCells {cell : Nat} (len : Nat) (bound : cell + len ≤ 0x100) :
    Plays cfg ⟨e, net⟩ (Master.read (cellAddr 0 cell) len) ((List.range len).map fun i => e.readRegister (cell + i))
      ⟨e, net⟩ := by
  have address := Scene.toNat_cellAddr (show cell ≤ 0x100 by omega)
  refine read (by omega) fun m h => List.map_congr_left fun i member => ?_
  have lt := List.mem_range.mp member
  rw [Scene.flatAddr_cellAddr (by omega)]
  exact h.read_register (by omega)

theorem readCell {cell : Nat} (lt : cell < 0x100) :
    Plays cfg ⟨e, net⟩ (Master.readByte (cellAddr 0 cell)) (e.readRegister cell) ⟨e, net⟩ :=
  (readCells 1 lt).bind (.pure _)

theorem readWord {cell : Nat} (bound : cell + 2 ≤ 0x100) :
    Plays cfg ⟨e, net⟩ (Master.readWord (cellAddr 0 cell)) (e.readWord cell) ⟨e, net⟩ :=
  (readCells 2 bound).bind (.pure _)

/-- Common registers other than the mode register. -/
theorem writeCommon {addr : UInt16} {data : Bytes} (after : 0 < addr.toNat)
    (before : addr.toNat + data.length ≤ commonSize) (nonempty : data ≠ []) :
    Plays cfg ⟨e, net⟩ (Master.write addr data) () ⟨e, net⟩ := by
  have some := List.length_pos_iff.mpr nonempty
  have bound : addr.toNat + data.length ≤ 0x100 := before
  refine write nonempty (by omega) (fun inside => ?_) (by simp only [maxBurst]; omega) fun m h => ?_
  · rw [InRings, UInt16.toNat_toUInt32] at inside
    omega
  · -- The tails of the bytes may be empty, so the induction goes without what was only needed for the bounds.
    clear nonempty some bound
    induction data generalizing m addr with
    | nil => exact ⟨m, .done, h⟩
    | cons b bs ih =>
      rw [List.length_cons] at before
      have next : (addr + 1).toNat = addr.toNat + 1 := by
        rw [UInt16.toNat_add, UInt16.toNat_one]
        simp only [commonSize] at before
        omega
      have here : addr.toUInt32.toNat = addr.toNat := UInt16.toNat_toUInt32 addr
      obtain ⟨m', written, shown⟩ := h.write_common (show 0 < addr.toUInt32.toNat by omega) (by omega) b
      obtain ⟨m'', rest, shown'⟩ := ih (show 0 < (addr + 1).toNat by omega) (by omega) m' shown
      exact ⟨m'', .byte written shown.still rest, shown'⟩

/-! ## Rings -/

theorem toNat_ringAddr (side : RingSide) (o : RingOffset) : (side.addr 0 o).toUInt16.toNat < 0x8000 := by
  have inside := side.inRings_addr 0 o
  rw [InRings] at inside
  rw [UInt32.toNat_toUInt16]
  omega

theorem writeTx (o : RingOffset) (b : UInt8) :
    Plays cfg ⟨e, net⟩ (Master.writeByte (txAddr 0 o).toUInt16 b) () ⟨e.storeTx o b, net⟩ := by
  refine writeByte (toNat_ringAddr .tx o) fun m h => ?_
  have written := h.write_tx o b
  rw [← Scene.toUInt32_ringAddr] at written
  have idles : (e.storeTx o b).Idles net := h.idles.of_owner rfl rfl
  exact ⟨_, written, h.setSocket idles⟩

theorem readRx (o : RingOffset) : Plays cfg ⟨e, net⟩ (Master.readByte (rxAddr 0 o).toUInt16) (e.rx.get o) ⟨e, net⟩ := by
  have bound := toNat_ringAddr .rx o
  have one : Plays cfg ⟨e, net⟩ (Master.read (rxAddr 0 o).toUInt16 1) [e.rx.get o] ⟨e, net⟩ := by
    refine read bound fun m h => ?_
    have place : flatAddr (rxAddr 0 o).toUInt16 0 = RingSide.rx.addr 0 o :=
      UInt32.ofNat_toNat.trans (Scene.toUInt32_ringAddr .rx o)
    rw [List.range_one, List.map_singleton, place, h.read_rx]
  exact one.bind (.pure _)

theorem storeTx (position : UInt16) (data : Bytes) :
    Plays cfg ⟨e, net⟩ (Bench.storeTx 0 position data) () ⟨e.storeTxAll (.ofWord position) data, net⟩ := by
  induction data generalizing e position with
  | nil => exact .pure ()
  | cons b bs ih =>
    have first : Plays cfg ⟨e, net⟩ (Master.writeByte (txAddr 0 (.ofWord position)).toUInt16 b) ()
        ⟨e.storeTx (.ofWord position) b, net⟩ := writeTx _ b
    rw [Engine.storeTxAll, ← RingOffset.ofWord_succ]
    exact first.bind (ih (position + 1))

theorem loadRx (position : UInt16) (len : Nat) :
    Plays cfg ⟨e, net⟩ (Bench.loadRx 0 position len)
      ((List.range len).map fun i => e.rx.get ((RingOffset.ofWord position).advance i)) ⟨e, net⟩ := by
  induction len generalizing position with
  | zero => exact .pure []
  | succ len ih =>
    have values : (List.range (len + 1)).map (fun i => e.rx.get ((RingOffset.ofWord position).advance i)) =
        e.rx.get (.ofWord position) ::
          (List.range len).map fun i => e.rx.get ((RingOffset.ofWord (position + 1)).advance i) := by
      rw [List.range_succ_eq_map, List.map_cons, List.map_map, RingOffset.advance_zero]
      simp only [Function.comp_def, RingOffset.ofWord_succ, RingOffset.advance_advance, Nat.add_comm 1]
    rw [values]
    exact (readRx _).bind ((ih (position + 1)).bind (.pure _))

end Plays

/-! ## Actions that may never end -/

section

omit [NetHost ν]

/-- A run goes on from where its first part has ended. -/
theorem RunM.bind_of_some {x : RunM ν α} {next : α → RunM ν β} {a : α} {net net' : ν} (ended : x net = some (a, net')) :
    (x >>= next) net = next a net' := by
  show (x net).bind (fun result => next result.1 result.2) = _
  rw [ended]
  rfl

theorem BenchM.bind_run (act : BenchM ν α) (next : α → BenchM ν β) (patience : Nat) (c : Chip) :
    (act >>= next) patience c = act patience c >>= fun ended => next ended.1 patience ended.2 := rfl

end

/-- With any patience and from every chip with the first scene, an action of the bench comes to an end, with
the given result and in a chip with the second scene. -/
def Completes (cfg : NetConfig) (s : Scene ν) (act : BenchM ν α) (result : α) (s' : Scene ν) : Prop :=
  ∀ patience c, s.On cfg c → ∃ c', act patience c s.host = some ((result, c'), s'.host) ∧ s'.On cfg c'

namespace Completes

variable {cfg : NetConfig} {s s' s'' : Scene ν}

theorem pure (result : α) : Completes cfg s (Pure.pure result) result s := fun _ c h => ⟨c, rfl, h⟩

theorem bind {act : BenchM ν α} {next : α → BenchM ν β} {a : α} {b : β} (first : Completes cfg s act a s')
    (rest : Completes cfg s' (next a) b s'') : Completes cfg s (act >>= next) b s'' := by
  intro patience c h
  obtain ⟨c', run, h'⟩ := first patience c h
  obtain ⟨c'', run', h''⟩ := rest patience c' h'
  refine ⟨c'', ?_, h''⟩
  rw [BenchM.bind_run, RunM.bind_of_some run]
  exact run'

/-- Looking at the chip. -/
theorem bind_get {next : Chip → BenchM ν β} {b : β} (rest : ∀ c, s.On cfg c → Completes cfg s (next c) b s') :
    Completes cfg s (get >>= next) b s' := fun patience c h => rest c h patience c h

/-- Asking for the patience. -/
theorem bind_read {next : Nat → BenchM ν β} {b : β} (rest : ∀ patience, Completes cfg s (next patience) b s') :
    Completes cfg s (read >>= next) b s' := fun patience c h => rest patience patience c h

/-- What goes over the bus ends. -/
theorem onBus {act : BusM ν α} {a : α} (plays : Plays cfg s act a s') : Completes cfg s (Bench.onBus act) a s' := by
  intro _ c h
  obtain ⟨c', run, h'⟩ := plays c h
  exact ⟨c', congrArg some run, h'⟩

theorem bind_bus {act : BusM ν α} {next : α → BenchM ν β} {a : α} {b : β} (first : Plays cfg s act a s')
    (rest : Completes cfg s' (next a) b s'') : Completes cfg s (Bench.onBus act >>= next) b s'' := (onBus first).bind rest

/-! ## Commands -/

variable {e e' : Engine} {net net' : ν}

/-- The command register shows zero when it is read first, so one read is enough. -/
theorem awaitAccepted (reads : Nat) : Completes cfg ⟨e, net⟩ (Bench.awaitAccepted 0 (reads + 1)) () ⟨e, net⟩ := by
  have look : Plays cfg ⟨e, net⟩ (Master.readByte (cellAddr 0 Cell.command)) 0 ⟨e, net⟩ := by
    have shown : e.readRegister Cell.command = 0 := if_pos rfl
    rw [← shown]
    exact .readCell (by decide)
  rw [Bench.awaitAccepted]
  refine .bind_bus look ?_
  rw [if_pos rfl]
  exact .pure ()

/-- A command does what the socket does with it, and is over. -/
theorem command {c : Command} (run : e.command cfg c.code net = (e', net'))
    (idles : e'.Idles net') : Completes cfg ⟨e, net⟩ (Bench.command 0 c) () ⟨e', net'⟩ := by
  have given : e.writeRegister cfg Cell.command c.code net = (e', net') := by
    rw [Engine.writeRegister, if_pos rfl]
    exact run
  exact .bind_bus (.writeCell (by decide) given idles) (bind_read awaitAccepted)

end Completes

end Bench

end EtherChip

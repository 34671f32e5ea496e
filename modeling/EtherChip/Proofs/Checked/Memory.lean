import EtherChip.Proofs.Checked.Address
import EtherChip.Proofs.Checked.Socket

/-!
# A memory with checked operations

Reads and writes find their cell by the numbers that an address is routed to, and a reset puts the values of
power-on into the common registers by index. None of this fails for any address (`read_eq`, `fulfils_write`), nor
does loading any saved state (`fulfils_loadSpace`); a burst has to be one that a decoder can come up with
(`fulfils_execute`).
-/
namespace EtherChip.Checked

variable {ν : Type} [NetHost ν]

def read (m : AddressSpace) (addr : UInt32) : Option UInt8 := do
  match ← route addr with
  | .common i => m.common[i]?
  | .register socket cell => return (← m.sockets[socket]?).readRegister cell
  | .tx socket offset => getCell (← m.sockets[socket]?).tx offset
  | .rx socket offset => getCell (← m.sockets[socket]?).rx offset
  | .unmapped => return 0

/-- The common registers as they are after power-on, register by register. -/
def commonPowerOn (model : ChipModel) : Option (Vector UInt8 commonSize) :=
  (commonPowerOnValues model).foldlM (fun cells entry => put cells entry.1 entry.2) (Vector.replicate commonSize 0)

/-- Closing a socket has nothing to check. -/
def reset (m : AddressSpace) : Guarded ν AddressSpace := do
  let common ← commonPowerOn m.model
  call (AddressSpace.forSockets { m with common := common } fun _ e => e.reset)

def write (m : AddressSpace) (addr : UInt32) (value : UInt8) : Guarded ν AddressSpace := do
  match ← route addr with
  | .common i =>
    if i = 0 ∧ AddressSpace.asksReset value then
      let m ← reset m
      return { m with common := ← put m.common 0 (value &&& 0x7F) }
    else return { m with common := ← put m.common i value }
  | .register socket cell =>
    let e ← writeRegister (← m.sockets[socket]?) m.config cell value
    return { m with sockets := ← put m.sockets socket e }
  | .tx socket offset =>
    let e ← m.sockets[socket]?
    return { m with sockets := ← put m.sockets socket { e with tx := ← setCell e.tx offset value } }
  | .rx socket offset =>
    let e ← m.sockets[socket]?
    return { m with sockets := ← put m.sockets socket { e with rx := ← setCell e.rx offset value } }
  | .unmapped => return m

/-- Writes the bytes of a burst from byte `i` on. -/
def writeBurstFrom (m : AddressSpace) (start : UInt32) (i : Nat) : Bytes → Guarded ν AddressSpace
  | [] => return m
  | b :: bs => do
    let m ← write m (← burstAddr start i) b
    writeBurstFrom m start (← add indexSize i 1) bs

def execute (m : AddressSpace) : MemoryOp → Guarded ν (UInt8 × AddressSpace)
  | .read addr => return (← read m addr, m)
  | .write addr value => return (0, ← write m addr value)
  | .burst addr data => return (0, ← writeBurstFrom m addr 0 data)

def executeSome (m : AddressSpace) : Option MemoryOp → Guarded ν (UInt8 × AddressSpace)
  | none => return (0, m)
  | some op => execute m op

/-- Changes every socket, in the order of their numbers. -/
def forSockets (m : AddressSpace) (f : Fin socketCount → Engine → Guarded ν Engine) : Guarded ν AddressSpace := do
  let change (sockets : Vector Engine socketCount) (n : Fin socketCount) : Guarded ν (Vector Engine socketCount) :=
    return sockets.set n.val (← f n (sockets.get n)) n.isLt
  return { m with sockets := ← (List.finRange socketCount).foldlM change m.sockets }

def pollSockets (m : AddressSpace) : Guarded ν AddressSpace := forSockets m fun _ e => pollSocket e

def loadSpace (m : AddressSpace) (state : SaveState) : Guarded ν AddressSpace := do
  let common ← restore (← commonPowerOn m.model) state.common
  forSockets { m with common := common } fun n e => loadSocket e (state.sockets[n.val]?.getD {})

/-! ## No operation fails -/

theorem socket_eq (m : AddressSpace) (n : Fin socketCount) : m.sockets[n.val]? = some (m.sockets.get n) :=
  Vector.getElem?_eq_getElem n.isLt

theorem read_eq (m : AddressSpace) (addr : UInt32) : read m addr = some (m.read addr) := by
  refine pass (route_eq addr) ?_
  unfold AddressSpace.read
  cases EtherChip.route addr with
  | common i => exact Vector.getElem?_eq_getElem i.isLt
  | register socket cell => exact pass (socket_eq m socket) rfl
  | tx socket offset =>
    refine pass (socket_eq m socket) ?_
    rw [getCell_eq, RingOffset.ofWord_toWord]
  | rx socket offset =>
    refine pass (socket_eq m socket) ?_
    rw [getCell_eq, RingOffset.ofWord_toWord]
  | unmapped => rfl

theorem foldlM_put {n : Nat} {entries : List (Nat × UInt8)} (inside : ∀ entry ∈ entries, entry.1 < n)
    (cells : Vector UInt8 n) : entries.foldlM (fun cells entry => put cells entry.1 entry.2) cells =
      some (entries.foldl (fun cells entry => cells.setIfInBounds entry.1 entry.2) cells) := by
  induction entries generalizing cells with
  | nil => rfl
  | cons entry entries ih =>
    have bound := inside entry List.mem_cons_self
    have same : cells.set entry.1 entry.2 bound = cells.setIfInBounds entry.1 entry.2 := by
      simp [Vector.set, Vector.setIfInBounds, Array.setIfInBounds, bound]
    rw [List.foldlM_cons, List.foldl_cons, ← same]
    exact pass (put_eq cells _ bound) (ih (fun e mem => inside e (List.mem_cons_of_mem _ mem)) _)

theorem commonPowerOn_eq (model : ChipModel) : commonPowerOn model = some (EtherChip.commonPowerOn model) :=
  foldlM_put (by cases model <;> decide) _

theorem fulfils_reset (m : AddressSpace) : Fulfils (reset m : Guarded ν _) m.reset :=
  .pass (commonPowerOn_eq _) (.call _)

omit [NetHost ν] in
theorem fulfils_forSockets (m : AddressSpace) {f : Fin socketCount → Engine → Guarded ν Engine}
    {k : Fin socketCount → Engine → StateM ν Engine} (each : ∀ n e, Fulfils (f n e) (k n e)) :
    Fulfils (forSockets m f) (m.forSockets k) := by
  let change (sockets : Vector Engine socketCount) (n : Fin socketCount) : StateM ν (Vector Engine socketCount) :=
    return sockets.set n.val (← k n (sockets.get n)) n.isLt
  have inTurn : m.forSockets k = do
      return { m with sockets := ← (List.finRange socketCount).foldlM change m.sockets } := by
    have four : m.sockets = #v[m.sockets[0], m.sockets[1], m.sockets[2], m.sockets[3]] := by
      ext n inside
      match n with
      | 0 | 1 | 2 | 3 => rfl
    rw [four]
    rfl
  -- Four binds one after another are a fold over the numbers of the sockets.
  rw [inTurn]
  exact .bind (.foldlM (fun _ n => .bind (each n _) fun _ => .pure _) _ _) fun _ => .pure _

theorem fulfils_loadSpace (m : AddressSpace) (state : SaveState) :
    Fulfils (loadSpace m state : Guarded ν _) (m.load state) :=
  .pass (commonPowerOn_eq _) (.pass (restore_eq ..) (fulfils_forSockets _ fun _ e => fulfils_loadSocket e _))

section

variable (bounds : KeepsLengths ν)

include bounds

theorem fulfils_write (m : AddressSpace) (addr : UInt32) (value : UInt8) :
    Fulfils (write m addr value : Guarded ν _) (m.write addr value) := by
  refine .pass (route_eq addr) ?_
  unfold AddressSpace.write
  cases EtherChip.route addr with
  | common i =>
    have mode : i.val = 0 ↔ i = commonMode := ⟨fun zero => Fin.ext zero, fun same => congrArg Fin.val same⟩
    simp only [Place.ofTarget, mode]
    exact .ite (fun _ => .bind (fulfils_reset m) fun m => .pass (put_eq _ _ (by decide)) (.pure _)) fun _ =>
      .pass (put_eq _ _ i.isLt) (.pure _)
  | register socket cell =>
    exact .pass (socket_eq m socket) (.bind (fulfils_writeRegister bounds _ _ _ _) fun e =>
      .pass (put_eq _ e socket.isLt) (.pure _))
  | tx socket offset =>
    refine .pass (socket_eq m socket) (.pass (setCell_eq ..) (.pass (put_eq _ _ socket.isLt) ?_))
    rw [RingOffset.ofWord_toWord]
    exact .pure _
  | rx socket offset =>
    refine .pass (socket_eq m socket) (.pass (setCell_eq ..) (.pass (put_eq _ _ socket.isLt) ?_))
    rw [RingOffset.ofWord_toWord]
    exact .pure _
  | unmapped => exact .pure _

theorem fulfils_writeBurstFrom (m : AddressSpace) {start : UInt32} (low : start.toNat ≤ 0x18FFF) {i : Nat}
    {data : Bytes} (short : i + data.length ≤ maxBurst) :
    Fulfils (writeBurstFrom m start i data : Guarded ν _) (m.writeBurstFrom start i data) := by
  induction data generalizing m i with
  | nil => exact .pure _
  | cons b bs ih =>
    rw [List.length_cons] at short
    refine .pass (burstAddr_eq low (by omega)) (.bind (fulfils_write bounds m _ b) fun m => ?_)
    refine .pass (add_eq ?_) (ih m ?_)
    · simp only [maxBurst, indexSize] at *
      omega
    · omega

theorem fulfils_execute (m : AddressSpace) {op : MemoryOp} (decodable : Decodable op) :
    Fulfils (execute m op : Guarded ν _) (Chip.execute m op) := by
  cases op with
  | read addr => exact .pass (read_eq m addr) (.pure _)
  | write addr value => exact .bind (fulfils_write bounds m addr value) fun _ => .pure _
  | burst addr data =>
    refine .bind (fulfils_writeBurstFrom bounds m decodable.1 ?_) fun _ => .pure _
    rw [Nat.zero_add]
    exact decodable.2

theorem fulfils_executeSome (m : AddressSpace) {op : Option MemoryOp} (decodable : ∀ o ∈ op, Decodable o) :
    Fulfils (executeSome m op : Guarded ν _) (Chip.executeSome m op) := by
  cases op with
  | none => exact .pure _
  | some op => exact fulfils_execute bounds m (decodable op rfl)

theorem fulfils_pollSockets (m : AddressSpace) : Fulfils (pollSockets m : Guarded ν _) m.poll :=
  fulfils_forSockets m fun _ e => fulfils_pollSocket bounds e

end

end EtherChip.Checked

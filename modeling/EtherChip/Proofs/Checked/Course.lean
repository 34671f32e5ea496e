import EtherChip.Host.Network
import EtherChip.Proofs.Checked.Chip

/-!
# Nothing that a program does with a chip is fatal

A course of accesses starts from a chip as it is after power-on. Between them the world may do anything to the
host, and the host may answer anything, but for a length that is more than what it was asked for
(`KeepsLengths`). Fewer than 2^64 of the accesses are steps. Then none of them comes to an end for lack of a
result (`no_operation_fails`): what is in range after one access is in range before the next, and the count of
steps is at most the number of those that were asked for.
-/
namespace EtherChip

variable {ν : Type} [NetHost ν]

/-- A course of accesses, and what comes back; before each of them the world does something to the host. -/
def Chip.serve (c : Chip) : List ((ν → ν) × Access) → StateM ν (List Reply × Chip)
  | [] => return ([], c)
  | (world, asked) :: later => do
    modify world
    let (reply, c) ← c.access asked
    let (replies, c) ← c.serve later
    return (reply :: replies, c)

/-- How many of some accesses are steps. -/
def stepsIn (asked : List ((ν → ν) × Access)) : Nat := asked.countP fun entry => entry.2 = .step

namespace Checked

def serve (c : Chip) : List ((ν → ν) × Access) → Guarded ν (List Reply × Chip)
  | [] => return ([], c)
  | (world, asked) :: later => do
    modify world
    let (reply, c) ← access c asked
    let (replies, c) ← serve c later
    return (reply :: replies, c)

/-! ## No course fails -/

omit [NetHost ν] in
theorem stepsIn_cons (world : ν → ν) (asked : Access) (later : List ((ν → ν) × Access)) :
    stepsIn ((world, asked) :: later) = stepsIn later + if asked = .step then 1 else 0 := by
  simp [stepsIn, List.countP_cons]

variable {c : Chip}

theorem Ranged.serve (h : Ranged c) (asked : List ((ν → ν) × Access)) :
    Always (c.serve asked : StateM ν _) fun after => Ranged after.2 := by
  induction asked generalizing c with
  | nil => exact .pure h
  | cons entry later ih =>
    exact .bind (.any _) fun _ _ => .bind (h.access entry.2) fun after known =>
      .bind (ih known) fun _ last => .pure last

theorem fulfils_serve (bounds : KeepsLengths ν) (h : Ranged c) {asked : List ((ν → ν) × Access)}
    (few : c.steps + stepsIn asked < UInt64.size) : Fulfils (serve c asked : Guarded ν _) (c.serve asked) := by
  induction asked generalizing c with
  | nil => exact .pure _
  | cons entry later ih =>
    obtain ⟨world, asked⟩ := entry
    rw [stepsIn_cons] at few
    have fits : asked = .step → c.steps + 1 < UInt64.size := by
      intro isStep
      rw [if_pos isStep] at few
      omega
    have served : Always (c.access asked : StateM ν _) fun after =>
        Ranged after.2 ∧ after.2.steps ≤ c.steps + if asked = .step then 1 else 0 := fun net =>
      ⟨h.access asked net, steps_access c asked net⟩
    have now : Fulfils (modify world : Guarded ν Unit) (modify world) := fun _ => rfl
    -- The accesses after this one start in range, and from a count that its own step is in already.
    refine .bind now fun _ => .bind_known (fulfils_access bounds h asked fits) served fun after known => ?_
    exact .bind (ih known.1 (by have := known.2; omega)) fun _ => .pure _

/-! ## The in-memory network -/

/-- What a call gives when it is made to fail, when it is made to find nothing and when it is made. -/
theorem always_attempt {α : Type} {body : StateM Network (Except Errno α)} {P : Except Errno α → Prop}
    {onZero : Option α} (refused : ∀ why, P (.error why)) (nothing : ∀ a ∈ onZero, P (.ok a)) (made : Always body P)
    (call : HostCall) : Always (Network.attempt call onZero body) P := by
  intro net
  unfold Network.attempt
  match Network.popFault call net.faults, onZero, nothing with
  | (some (.error why), _), _, _ => exact refused why
  | (some .zero, _), some a, nothing => exact nothing a rfl
  | (some .zero, _), none, _ | (none, _), _, _ => exact made _

theorem network_received (id : SocketId) (max : Nat) :
    Always (Network.receiveFrom id max) fun answer =>
      ∀ bytes source, answer = .ok (bytes, source) → bytes.length ≤ max := by
  refine always_attempt (fun _ => nofun) nofun (.bind (.any _) fun net _ => ?_) .receiveFrom
  split
  · refine .bind (.any _) fun _ _ => .pure fun bytes source same => ?_
    cases same
    exact List.length_take_le ..
  all_goals exact .pure nofun

theorem sendable_le {l : Link} {side : Side} {len n : Nat} (taken : Network.sendable l side len = .ok n) : n ≤ len := by
  unfold Network.sendable at taken
  by_cases reset : (l.side side).reset = true
  · rw [if_pos reset] at taken
    cases taken
  · rw [if_neg reset] at taken
    by_cases closed : (l.side side.other).closed = true
    · rw [if_pos closed] at taken
      cases taken
    · rw [if_neg closed] at taken
      have within (sent : Nat) (le : sent ≤ len)
          (same : (if sent = 0 then .error .eagain else .ok sent : Except Errno Nat) = .ok n) : n ≤ len := by
        by_cases nothing : sent = 0
        · rw [if_pos nothing] at same
          cases same
        · rw [if_neg nothing] at same
          cases same
          exact le
      cases window : (l.side side).window with
      | none =>
        rw [window] at taken
        exact within len (Nat.le_refl len) taken
      | some room =>
        rw [window] at taken
        exact within (min len room) (Nat.min_le_left len room) taken

theorem network_taken (id : SocketId) (data : Bytes) :
    Always (Network.write id data) fun answer => ∀ n, answer = .ok n → n ≤ data.length := by
  refine always_attempt (fun why n same => ?_) (fun a zero n same => ?_) (fun net => ?_) .write
  · cases same
  · cases zero
    cases same
    exact Nat.zero_le _
  · intro n same
    unfold Network.transmit at same
    cases found : net.linkOf? id with
    | none =>
      rw [found] at same
      cases same
    | some place =>
      rw [found] at same
      dsimp only at same
      cases sends : Network.sendable place.2.2 place.2.1 data.length with
      | error why =>
        rw [sends] at same
        cases same
      | ok taken =>
        rw [sends] at same
        cases same
        exact sendable_le sends

theorem keepsLengths_network : KeepsLengths Network := ⟨network_received, network_taken⟩

/-! ## Chips from power-on -/

/-- Whatever a program does with a chip in fewer than 2^64 steps, whatever the host answers and the world does to it,
no operation fails: the chip that is checked at every operation has a result, the same as the chip that is not, and
its sampler has counted fewer than eight edges. In particular no address leads out of range, no burst that a decoder
can come up with past the last address, no pointers that can stand in a socket to less than no room, no copy past
the end of a ring, and no request that a ring can hold past the end of a reply. -/
theorem no_operation_fails (bounds : KeepsLengths ν) (model : ChipModel) (config : NetConfig)
    {asked : List ((ν → ν) × Access)} (few : stepsIn asked < UInt64.size) (net : ν) :
    serve (.powerOn model config) asked net = some ((Chip.powerOn model config).serve asked net) ∧
      ((Chip.powerOn model config).serve asked net).1.2.sampler.edges < 8 ∧
      (∀ addr, ∃ place, route addr = some place ∧ place.Inside) ∧
      (∀ block addr, ∃ start, blockAddr block addr = some start ∧ ∀ i ≤ maxBurst, (burstAddr start i).isSome) ∧
      (∀ e, (showFree e).isSome ∧ (rxRoom e).isSome) ∧
      (∀ ring start len data, (copyOut ring start len).isSome ∧ (copyIn ring start data).isSome) ∧
      ∀ request leased server now, request.length ≤ ringSize →
        (respond request leased server).isSome ∧ (respondTime request server now).isSome := by
  have fresh : Ranged (.powerOn model config) := ranged_powerOn model config
  have few : (Chip.powerOn model config).steps + stepsIn asked < UInt64.size := by
    change 0 + stepsIn asked < UInt64.size
    rwa [Nat.zero_add]
  refine ⟨fulfils_serve bounds fresh few net, (fresh.serve asked net).edges, route_inside, burst_inside, ?_, ?_, ?_⟩
  · intro e
    rw [showFree_eq, rxRoom_eq]
    exact ⟨rfl, rfl⟩
  · intro ring start len data
    rw [copyOut_eq, copyIn_eq]
    exact ⟨rfl, rfl⟩
  · intro request leased server now short
    rw [respond_eq short, respondTime_eq]
    exact ⟨rfl, rfl⟩

/-- A course of accesses that asks for trouble: a saved state with pointers out of every range and more bytes than
there is room for, accesses at the last address, SEND on a socket for datagrams, and a reset in the middle of a
byte. -/
def hostileCourse : List ((Network → Network) × Access) :=
  let odd : SocketState :=
    { registers := List.replicate 60 0xFF, tx := List.replicate 3 1, rx := [], rxWrite := 0xFFFF }
  [.load { common := List.replicate 300 0xFF, sockets := List.replicate 6 odd }, .write 0x400 0x02, .write 0x401 0x01,
    .write 0x424 0xFF, .write 0x425 0xFF, .write 0x401 0x20, .write 0xFFFFFFFF 1, .read 0xFFFFFFFF, .drive .ss false,
    .drive .sck true, .step, .reset, .step].map fun asked => (id, asked)

theorem hostile_course_served :
    KeepsLengths Network ∧ stepsIn hostileCourse < UInt64.size ∧
      serve (.powerOn .w5500 {}) hostileCourse ({} : Network) =
        some ((Chip.powerOn .w5500 {}).serve hostileCourse {}) ∧
      ((Chip.powerOn .w5500 {}).serve hostileCourse ({} : Network)).1.2.sampler.edges < 8 := by
  have few : stepsIn hostileCourse < UInt64.size := by decide
  obtain ⟨served, edges, -⟩ := no_operation_fails keepsLengths_network .w5500 {} few {}
  exact ⟨keepsLengths_network, few, served, edges⟩

end Checked

end EtherChip

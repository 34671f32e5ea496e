import EtherChip.Dump.Registers
import EtherChip.Proofs.Bus.Bytewise
import EtherChip.Proofs.Memory.Coupling

/-!
# Everything that a program can do with a chip

A program drives and reads the lines, makes steps, reads and writes through the address space, dumps,
saves, loads and resets, and sees what comes back (`Access`, `Reply`). Whatever it does, a chip keeps
its model, its configuration and its framing (`Reached.sound`). Two chips that differ in nothing but the
identities of their host sockets give the same replies in every course of accesses in which their hosts
answer alike (`Alike.replies`).
-/
namespace EtherChip

/-- What a program can ask of a chip. -/
inductive Access where
  | drive (line : Line) (high : Bool)
  | level (line : Line)
  | step
  | steps
  | read (addr : UInt32)
  | write (addr : UInt32) (value : UInt8)
  | dumpCommon
  | dumpSocket (n : Nat)
  | dumpTx (n : Nat) (start : RingOffset) (len : Nat)
  | dumpRx (n : Nat) (start : RingOffset) (len : Nat)
  | save
  | load (state : SaveState)
  | reset
  deriving DecidableEq

/-- What comes back. -/
inductive Reply where
  | done
  /-- How long to wait before the next step, in nanoseconds. -/
  | delay (nanoseconds : UInt64)
  | level (high : Bool)
  | count (n : Nat)
  | byte (value : UInt8)
  | dump (text : Option String)
  | saved (state : SaveState)
  deriving DecidableEq

namespace Chip

variable {ν ν' : Type} [NetHost ν] [NetHost ν']

/-- One access, while the chip's host is as it is. -/
def access (c : Chip) : Access → StateM ν (Reply × Chip)
  | .drive line high => return (.done, { c with lines := c.lines.drive line high })
  | .level line => return (.level (c.lines.level line), c)
  | .step => return (.delay c.config.stepInterval, ← c.step)
  | .steps => return (.count c.steps, c)
  | .read addr => return (.byte (c.read addr), c)
  | .write addr value => return (.done, ← c.write addr value)
  | .dumpCommon => return (.dump c.dumpCommon, c)
  | .dumpSocket n => return (.dump (c.dumpSocket? n), c)
  | .dumpTx n start len => return (.dump (c.dumpTx? n start len), c)
  | .dumpRx n start len => return (.dump (c.dumpRx? n start len), c)
  | .save => return (.saved c.save, c)
  | .load state => return (.done, ← c.load state)
  | .reset => return (.done, ← c.reset)

/-- The replies in a course of accesses; before each of them the world does something to the host. -/
def replies (c : Chip) : List ((ν → ν) × Access) → ν → List Reply
  | [], _ => []
  | (world, asked) :: later, net =>
    let after := c.access asked (world net)
    after.1.1 :: after.1.2.replies later after.2

/-! ## Chips that can be -/

variable (ν) in
/-- A chip that comes about from a fresh one by accesses, whatever the host is like at each. -/
inductive Reached (model : ChipModel) (config : NetConfig) : Chip → Prop where
  | powerOn : Reached model config (powerOn model config)
  | access {c : Chip} (before : Reached model config c) (asked : Access) (net : ν) :
    Reached model config (c.access asked net).1.2

variable {model : ChipModel} {config : NetConfig} {c : Chip}

theorem Reached.present (h : Reached ν model config c) (l : Levels) (net : ν) :
    Reached ν model config (c.present l) :=
  ((h.access (.drive .ss l.ss) net).access (.drive .sck l.sck) net).access (.drive .mosi l.mosi) net

/-- Whatever waveform a chip is shown, it is one that can be. -/
theorem Reached.follow (h : Reached ν model config c) (w : Waveform) (net : ν) :
    Reached ν model config (c.follow w net).1 := by
  induction w generalizing c net with
  | nil => exact h
  | cons l w ih => exact ih ((h.present l net).access .step net) _

/-- What no access changes. -/
structure Sound (model : ChipModel) (config : NetConfig) (c : Chip) : Prop where
  space : c.memory.model = model ∧ c.memory.config = config
  framing : c.decoder.reset = .idle model
  /-- A received byte is taken in the step that completes it. -/
  taken : c.sampler.ready = false

theorem Sound.withMemory (h : c.Sound model config) {m : AddressSpace} (same : c.memory.Same m) :
    Sound model config { c with memory := m } :=
  ⟨⟨same.1.trans h.space.1, same.2.trans h.space.2⟩, h.framing, h.taken⟩

theorem Sound.step (h : c.Sound model config) (net : ν) : (c.step net).1.Sound model config := by
  obtain ⟨meets, -, answer, sampler⟩ := c.step_meets h.taken net
  have same : c.memory.Same (c.step net).1.memory := by
    rw [show (c.step net).1.memory = _ from congrArg (·.1.memory) meets]
    exact AddressSpace.same_tick c.memory _ net
  have decoder : (c.step net).1.decoder = (c.decoder.meet c.event?).2 := congrArg (·.1.decoder) meets
  have framing (d : Decoder) : d.reset = d.deselect.2 := by cases d <;> rfl
  exact {
    space := ⟨same.1.trans h.space.1, same.2.trans h.space.2⟩
    framing := by rw [decoder, framing, Decoder.deselect_meet, ← framing, h.framing]
    taken := by rw [sampler]; rfl }

theorem Sound.access (h : c.Sound model config) (asked : Access) (net : ν) :
    (c.access asked net).1.2.Sound model config := by
  have framing (d : Decoder) : d.reset.reset = d.reset := by cases d <;> rfl
  cases asked with
  | drive | level | steps | read | dumpCommon | dumpSocket | dumpTx | dumpRx | save =>
    exact ⟨h.space, h.framing, h.taken⟩
  | step => exact h.step net
  | write addr value => exact h.withMemory (AddressSpace.same_write c.memory addr value net)
  | load state => exact ⟨h.space, (framing _).trans h.framing, rfl⟩
  | reset => exact ⟨h.space, (framing _).trans h.framing, rfl⟩

theorem Reached.sound (h : Reached ν model config c) : c.Sound model config := by
  induction h with
  | powerOn => exact ⟨⟨rfl, rfl⟩, by cases model <;> rfl, rfl⟩
  | access _ asked net ih => exact ih.access asked net

/-! ## Chips that cannot be told apart -/

/-- The same chip, up to the identities of the host sockets behind it. -/
def Alike (ids : SocketId → SocketId → Prop) (c c' : Chip) : Prop :=
  ∃ m', c.memory.Alike ids m' ∧ c' = { c with memory := m' }

section

variable {ids : SocketId → SocketId → Prop} {c' : Chip}

theorem Alike.dumpCommon (h : c.Alike ids c') : c.dumpCommon = c'.dumpCommon := by
  obtain ⟨m', alike, rfl⟩ := h
  unfold Chip.dumpCommon model
  rw [alike.common, alike.model]

/-- What is shown of a socket that has nothing to do with its host socket. -/
theorem Alike.socket? {α : Type} (h : c.Alike ids c') (n : Nat) {f : Engine → α}
    (apart : ∀ {e e' : Engine}, e.Alike ids e' → f e = f e') : (c.socket? n).map f = (c'.socket? n).map f := by
  obtain ⟨m', alike, rfl⟩ := h
  unfold Chip.socket? AddressSpace.socket?
  by_cases bound : n < socketCount
  · rw [Vector.getElem?_eq_getElem bound, Vector.getElem?_eq_getElem bound]
    exact congrArg some (apart (alike.sockets ⟨n, bound⟩))
  · rw [Vector.getElem?_eq_none (Nat.not_lt.mp bound), Vector.getElem?_eq_none (Nat.not_lt.mp bound)]

theorem Alike.dumpSocket? (h : c.Alike ids c') (n : Nat) : c.dumpSocket? n = c'.dumpSocket? n := by
  refine h.socket? n fun {e e'} alike => ?_
  have registers : e.readRegister = e'.readRegister := funext alike.readRegister
  rw [alike.status, alike.protocol, alike.rxWrite, alike.isConnecting, registers]

theorem Alike.dumpTx? (h : c.Alike ids c') (n : Nat) (start : RingOffset) (len : Nat) :
    c.dumpTx? n start len = c'.dumpTx? n start len := h.socket? n fun alike => by rw [alike.tx]

theorem Alike.dumpRx? (h : c.Alike ids c') (n : Nat) (start : RingOffset) (len : Nat) :
    c.dumpRx? n start len = c'.dumpRx? n start len := h.socket? n fun alike => by rw [alike.rx]

end

variable {R : ν → ν' → Prop} {ids : SocketId → SocketId → Prop} (agree : HostsAgree R ids) {c' : Chip}

include agree

/-- The two chips have one sampler and one framing between them, so the same operation comes out. -/
theorem couple_transact (h : c.Alike ids c') : Couple R c.transact c'.transact (Alike ids) := by
  obtain ⟨m', alike, rfl⟩ := h
  unfold transact
  refine .ite (fun _ => .ite (fun _ => .pure ⟨m', alike, rfl⟩) fun _ => ?_) fun _ =>
    .ite (fun _ => ?_) fun _ => .pure ⟨m', alike, rfl⟩
  · refine .bind (AddressSpace.couple_executeSome agree alike _) ?_
    rintro ⟨answer, m⟩ ⟨_, m'⟩ ⟨rfl, after⟩
    exact .pure ⟨m', after, rfl⟩
  · refine .bind (AddressSpace.couple_executeSome agree alike _) ?_
    rintro ⟨answer, m⟩ ⟨_, m'⟩ ⟨rfl, after⟩
    exact .pure ⟨m', after, rfl⟩

theorem couple_step (h : c.Alike ids c') : Couple R c.step c'.step (Alike ids) := by
  obtain ⟨m', alike, rfl⟩ := h
  -- what the sampler sees does not depend on the memory, so it is named once for both chips
  rcases stepped : c.sampler.step c.lines with ⟨s, l⟩
  have looked : Alike ids { c with sampler := s, lines := l } { c with sampler := s, lines := l, memory := m' } :=
    ⟨m', alike, rfl⟩
  unfold step
  dsimp only
  rw [stepped]
  refine .bind (couple_transact agree looked) ?_
  rintro c₁ _ ⟨m₁, after, rfl⟩
  exact .bind (AddressSpace.couple_poll agree after) fun _ m₂ polled => .pure ⟨m₂, polled, rfl⟩

theorem couple_write (h : c.Alike ids c') (addr : UInt32) (value : UInt8) :
    Couple R (c.write addr value) (c'.write addr value) (Alike ids) := by
  obtain ⟨m', alike, rfl⟩ := h
  exact .bind (AddressSpace.couple_write agree alike addr value) fun _ after written => .pure ⟨after, written, rfl⟩

theorem couple_load (h : c.Alike ids c') (state : SaveState) :
    Couple R (c.load state) (c'.load state) (Alike ids) := by
  obtain ⟨m', alike, rfl⟩ := h
  exact .bind (AddressSpace.couple_load agree alike state) fun _ after loaded => .pure ⟨after, loaded, rfl⟩

theorem couple_reset (h : c.Alike ids c') : Couple R c.reset c'.reset (Alike ids) := by
  obtain ⟨m', alike, rfl⟩ := h
  exact .bind (AddressSpace.couple_reset agree alike) fun _ after closed => .pure ⟨after, closed, rfl⟩

/-- One access: the replies are the same, and the chips stay alike. -/
theorem couple_access (h : c.Alike ids c') (asked : Access) :
    Couple R (c.access asked) (c'.access asked) fun a b => a.1 = b.1 ∧ a.2.Alike ids b.2 := by
  -- the dumps and the operations have lemmas about the chips, the rest shows single fields
  have whole := h
  obtain ⟨m', alike, rfl⟩ := h
  cases asked with
  | drive line high => exact .pure ⟨rfl, m', alike, rfl⟩
  | level line => exact .pure ⟨rfl, whole⟩
  | step =>
    have delay : Reply.delay c.memory.config.stepInterval = .delay m'.config.stepInterval := by rw [alike.config]
    exact .bind (couple_step agree whole) fun _ _ after => .pure ⟨delay, after⟩
  | steps => exact .pure ⟨rfl, whole⟩
  | read addr => exact .pure ⟨congrArg Reply.byte (alike.read addr), whole⟩
  | write addr value => exact .bind (couple_write agree whole addr value) fun _ _ after => .pure ⟨rfl, after⟩
  | dumpCommon => exact .pure ⟨congrArg (fun text => Reply.dump (some text)) whole.dumpCommon, whole⟩
  | dumpSocket n => exact .pure ⟨congrArg Reply.dump (whole.dumpSocket? n), whole⟩
  | dumpTx n start len => exact .pure ⟨congrArg Reply.dump (whole.dumpTx? n start len), whole⟩
  | dumpRx n start len => exact .pure ⟨congrArg Reply.dump (whole.dumpRx? n start len), whole⟩
  | save => exact .pure ⟨congrArg Reply.saved alike.save, whole⟩
  | load state => exact .bind (couple_load agree whole state) fun _ _ after => .pure ⟨rfl, after⟩
  | reset => exact .bind (couple_reset agree whole) fun _ _ after => .pure ⟨rfl, after⟩

omit agree

variable (R) in
/-- Two courses ask for the same, while what the world does keeps their hosts in corresponding states. -/
inductive SameCourse : List ((ν → ν) × Access) → List ((ν' → ν') × Access) → Prop where
  | nil : SameCourse [] []
  | cons {world : ν → ν} {world' : ν' → ν'} (asked : Access) {later : List ((ν → ν) × Access)}
      {later' : List ((ν' → ν') × Access)} (keeps : ∀ net net', R net net' → R (world net) (world' net'))
      (rest : SameCourse later later') : SameCourse ((world, asked) :: later) ((world', asked) :: later')

omit [NetHost ν] in
theorem SameCourse.refl (later : List ((ν → ν) × Access)) : SameCourse Eq later later := by
  induction later with
  | nil => exact .nil
  | cons first later ih => exact .cons first.2 (fun _ _ now => congrArg first.1 now) ih

/-- **Chips that are alike reply alike.** -/
theorem Alike.replies (agree : HostsAgree R ids) (h : c.Alike ids c') {later : List ((ν → ν) × Access)}
    {later' : List ((ν' → ν') × Access)} (course : SameCourse R later later') {net : ν} {net' : ν'} (now : R net net') :
    c.replies later net = c'.replies later' net' := by
  induction course generalizing c c' net net' with
  | nil => rfl
  | cons asked keeps rest ih =>
    obtain ⟨⟨same, alike⟩, next⟩ := couple_access agree h asked _ _ (keeps net net' now)
    unfold Chip.replies
    dsimp only
    rw [same, ih alike next]

end Chip

end EtherChip

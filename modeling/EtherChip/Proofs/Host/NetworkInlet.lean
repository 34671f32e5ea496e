import EtherChip.Host.Network
import EtherChip.Proofs.Host.Inlet

/-!
# What waits on the in-memory network

The in-memory network keeps what `StreamCalls` and `DatagramCalls` ask of a host: what waits on a stream
is the inbox of its side of the connection, as long as no look or read is made to find nothing, and what
waits on a datagram socket is its queue.
-/
namespace EtherChip

/-! ## Access -/

namespace Link

@[simp] theorem side_modify_self (l : Link) (s : Side) (f : LinkSide → LinkSide) :
    (l.modify s f).side s = f (l.side s) := by
  cases s <;> rfl

@[simp] theorem side_modify_other (l : Link) (s : Side) (f : LinkSide → LinkSide) :
    (l.modify s f).side s.other = l.side s.other := by
  cases s <;> rfl

end Link

namespace Network

theorem linkOf?_modifySide {net : Network} {id : SocketId} {link : Nat} {side : Side} {l : Link}
    (h : net.linkOf? id = some (link, side, l)) (f : LinkSide → LinkSide) :
    (net.modifySide link side f).linkOf? id = some (link, side, l.modify side f) := by
  unfold linkOf? at h ⊢
  have same : (net.modifySide link side f).socket? id = net.socket? id := rfl
  rw [same]
  split at h
  · rename_i number held peer _
    obtain ⟨found, exact, there⟩ := Option.map_eq_some_iff.mp h
    obtain ⟨rfl, rfl, rfl⟩ : number = link ∧ held = side ∧ found = l := by simpa using there
    rw [modifySide]
    simp [exact, Array.getElem?_modify]
  · exact nomatch h

theorem socket?_setSocket_self {net : Network} {id : SocketId} {s : NetSocket} (h : net.socket? id = some s)
    (s' : NetSocket) : (net.setSocket id s').socket? id = some s' := by
  unfold socket? setSocket at *
  dsimp only at *
  generalize net.sockets = sockets at *
  induction sockets with
  | nil => exact nomatch h
  | cons entry rest ih =>
    obtain ⟨other, held⟩ := entry
    by_cases same : other = id
    · subst same
      simp
    · have apart : (id == other) = false := by simpa using Ne.symm same
      rw [List.lookup_cons, apart] at h
      rw [List.map_cons, if_neg same, List.lookup_cons, apart]
      exact ih h

/-! ## Faults -/

theorem mem_of_popFault {call : HostCall} {faults : List (HostCall × Fault)} {fault : Fault}
    (h : (popFault call faults).1 = some fault) : (call, fault) ∈ faults := by
  induction faults with
  | nil => exact nomatch h
  | cons entry rest ih =>
    unfold popFault at h
    split at h
    · rename_i same
      obtain rfl : entry.2 = fault := Option.some.inj h
      exact same ▸ .head _
    · exact .tail _ (ih h)

theorem popFault_subset (call : HostCall) (faults : List (HostCall × Fault)) :
    (popFault call faults).2 ⊆ faults := by
  induction faults with
  | nil => exact List.Subset.refl _
  | cons entry rest ih =>
    unfold popFault
    split
    · exact List.subset_cons_self _ _
    · exact List.cons_subset_cons _ ih

/-- A call that was not made to find nothing is refused, or made; either way some faults are used up. -/
theorem attempt_elim {α : Type} {call : HostCall} {onZero : Option α} {body : StateM Network (Except Errno α)}
    {net : Network} {P : Except Errno α × Network → Prop} (real : onZero = none ∨ (call, .zero) ∉ net.faults)
    (refused : ∀ faults ⊆ net.faults, ∀ why, P (.error why, { net with faults := faults }))
    (made : ∀ faults ⊆ net.faults, P (body { net with faults := faults })) : P (attempt call onZero body net) := by
  have fewer := popFault_subset call net.faults
  unfold attempt
  rcases found : popFault call net.faults with ⟨_ | why | _, rest⟩ <;> rw [found] at fewer
  · exact made rest fewer
  · exact refused rest fewer why
  · rcases real with rfl | absent
    · exact made rest fewer
    · exact absurd (mem_of_popFault (congrArg Prod.fst found)) absent

/-! ## Streams -/

/-- The stream behind a socket. -/
def streamInlet (id : SocketId) : Inlet Network UInt8 where
  waiting net := ((net.linkOf? id).map fun (_, side, l) => (l.side side).inbox).getD []
  ended net := (net.linkOf? id).any fun (_, side, l) => (l.side side.other).closed
  sound net := (.peek, .zero) ∉ net.faults ∧ (.read, .zero) ∉ net.faults

instance (id : SocketId) : DecidablePred (streamInlet id).ended := fun _ => inferInstanceAs (Decidable (_ = true))

instance (id : SocketId) : DecidablePred (streamInlet id).sound := fun _ => inferInstanceAs (Decidable (_ ∧ _))

/-- Faults that are used up change nothing about a stream. -/
theorem gives_faults {id : SocketId} {net : Network} (sound : (streamInlet id).sound net)
    {faults : List (HostCall × Fault)} (fewer : faults ⊆ net.faults) :
    (streamInlet id).Gives [] net { net with faults := faults } where
  waiting := rfl
  ended := Iff.rfl
  sound := ⟨fun zero => sound.1 (fewer zero), fun zero => sound.2 (fewer zero)⟩

theorem available_nil {l : Link} {side : Side} (h : available l side = .ok []) :
    (l.side side).inbox = [] ∧ (l.side side.other).closed := by
  unfold available at h
  split at h
  · exact nomatch h
  split at h
  · rename_i some
    exact absurd (Except.ok.inj h) some
  split at h
  · exact ⟨Classical.not_not.mp ‹_›, ‹_›⟩
  · exact nomatch h

theorem available_ok {l : Link} {side : Side} {bytes : Bytes} (h : available l side = .ok bytes) :
    bytes = (l.side side).inbox := by
  cases bytes with
  | nil => exact (available_nil h).1.symm
  | cons b rest =>
    unfold available at h
    split at h
    · exact nomatch h
    split at h
    · exact (Except.ok.inj h).symm
    split at h <;> exact nomatch h

/-- A look at a stream takes nothing, and finds nothing only at its end. -/
theorem peek_gives {id : SocketId} {net : Network} (sound : (streamInlet id).sound net) (len : Nat) :
    (streamInlet id).Gives [] net (peek id len net).2 ∧
    ((peek id len net).1 = .ok 0 → len = 0 ∨ (streamInlet id).waiting net = [] ∧ (streamInlet id).ended net) := by
  refine attempt_elim (P := fun r => (streamInlet id).Gives [] net r.2 ∧
    (r.1 = .ok 0 → len = 0 ∨ (streamInlet id).waiting net = [] ∧ (streamInlet id).ended net)) (.inr sound.1)
    (fun faults fewer why => ⟨gives_faults sound fewer, nofun⟩) fun faults fewer => ?_
  have same : ({ net with faults := faults } : Network).linkOf? id = net.linkOf? id := rfl
  rw [get_run, same]
  rcases linked : net.linkOf? id with _ | ⟨link, side, l⟩ <;> dsimp only [pure, StateT.pure]
  · exact ⟨gives_faults sound fewer, nofun⟩
  rcases there : available l side with why | bytes
  · exact ⟨gives_faults sound fewer, nofun⟩
  · refine ⟨gives_faults sound fewer, fun answer => ?_⟩
    have none : min len bytes.length = 0 := Except.ok.inj answer
    cases bytes with
    | nil =>
      obtain ⟨empty, closed⟩ := available_nil there
      exact .inr ⟨by simp [streamInlet, linked, empty], by simp [streamInlet, linked, closed]⟩
    | cons b rest =>
      rw [List.length_cons] at none
      exact .inl (by omega)

/-- Bytes are taken out of the inbox, from the front. -/
theorem gives_take {id : SocketId} {net : Network} (sound : (streamInlet id).sound net) {link : Nat} {side : Side}
    {l : Link} (linked : net.linkOf? id = some (link, side, l)) (max : Nat) :
    (streamInlet id).Gives ((l.side side).inbox.take max) net
      (net.modifySide link side fun s => { s with inbox := (l.side side).inbox.drop max }) := by
  have after := linkOf?_modifySide linked fun s => { s with inbox := (l.side side).inbox.drop max }
  refine ⟨?_, ?_, sound⟩
  · simp [streamInlet, linked, after]
  · simp [streamInlet, linked, after]

/-- A read takes bytes from the front, and none only at the end of the stream. -/
theorem read_gives {id : SocketId} {net : Network} (sound : (streamInlet id).sound net) (max : Nat) :
    (∀ bytes, (read id max net).1 = .ok bytes → bytes.length ≤ max ∧
      (streamInlet id).Gives bytes net (read id max net).2 ∧
      (bytes = [] → max = 0 ∨ (streamInlet id).waiting net = [] ∧ (streamInlet id).ended net)) ∧
    (Fails (read id max) net → (streamInlet id).Gives [] net (read id max net).2) := by
  refine attempt_elim (P := fun r => (∀ bytes, r.1 = .ok bytes → bytes.length ≤ max ∧
      (streamInlet id).Gives bytes net r.2 ∧
      (bytes = [] → max = 0 ∨ (streamInlet id).waiting net = [] ∧ (streamInlet id).ended net)) ∧
    ((∃ why, r.1 = .error why) → (streamInlet id).Gives [] net r.2)) (.inr sound.2)
    (fun faults fewer why => ⟨nofun, fun _ => gives_faults sound fewer⟩) fun faults fewer => ?_
  have same : ({ net with faults := faults } : Network).linkOf? id = net.linkOf? id := rfl
  rw [get_run, same]
  rcases linked : net.linkOf? id with _ | ⟨link, side, l⟩ <;> dsimp only [pure, StateT.pure]
  · exact ⟨nofun, fun _ => gives_faults sound fewer⟩
  rcases there : available l side with why | bytes <;> dsimp only
  · exact ⟨nofun, fun _ => gives_faults sound fewer⟩
  · refine ⟨fun taken answer => ?_, nofun⟩
    obtain rfl : bytes.take max = taken := Except.ok.inj answer
    have used := gives_faults sound fewer
    have taken := gives_take used.sound (same.trans linked) max
    rw [← available_ok there] at taken
    refine ⟨List.length_take_le max bytes, used.trans taken, fun none => ?_⟩
    cases bytes with
    | nil =>
      obtain ⟨empty, closed⟩ := available_nil there
      exact .inr ⟨by simp [streamInlet, linked, empty], by simp [streamInlet, linked, closed]⟩
    | cons b rest =>
      cases max with
      | zero => exact .inl rfl
      | succ max => exact nomatch none

theorem streamCalls (id : SocketId) : StreamCalls (streamInlet id) id where
  peek := peek_gives
  read sound max bytes answer := (read_gives sound max).1 bytes answer
  refuse sound max failed := (read_gives sound max).2 failed

/-! ## Datagrams -/

/-- The queue of a datagram socket. -/
def datagramInlet (id : SocketId) : Inlet Network Datagram where
  waiting net := match net.socket? id with
    | some (.udp _ queue) => queue
    | _ => []
  ended _ := False
  sound _ := True

instance (id : SocketId) : DecidablePred (datagramInlet id).ended := fun _ => .isFalse fun never => never

instance (id : SocketId) : DecidablePred (datagramInlet id).sound := fun _ => .isTrue trivial

/-- Faults that are used up change nothing about a queue. -/
theorem gives_datagram_faults (id : SocketId) (net : Network) (faults : List (HostCall × Fault)) :
    (datagramInlet id).Gives [] net { net with faults := faults } :=
  ⟨rfl, Iff.rfl, trivial⟩

theorem peekFrom_gives (id : SocketId) (net : Network) (len : Nat) :
    (datagramInlet id).Gives [] net (peekFrom id len net).2 ∧ ∀ n, (peekFrom id len net).1 = .ok n →
      ∃ d rest, (datagramInlet id).waiting net = d :: rest ∧ n = min len d.payload.length := by
  refine attempt_elim (P := fun r => (datagramInlet id).Gives [] net r.2 ∧ ∀ n, r.1 = .ok n →
      ∃ d rest, (datagramInlet id).waiting net = d :: rest ∧ n = min len d.payload.length) (.inl rfl)
    (fun faults _ why => ⟨gives_datagram_faults id net faults, nofun⟩) fun faults _ => ?_
  have same : ({ net with faults := faults } : Network).socket? id = net.socket? id := rfl
  rw [get_run, same]
  rcases held : net.socket? id with _ | ⟨addr, _ | ⟨d, rest⟩⟩ | _ <;> dsimp only [pure, StateT.pure]
  case some.udp.cons =>
    refine ⟨gives_datagram_faults id net faults, fun n answer => ⟨d, rest, ?_, (Except.ok.inj answer).symm⟩⟩
    simp [datagramInlet, held]
  all_goals exact ⟨gives_datagram_faults id net faults, nofun⟩

theorem receiveFrom_gives (id : SocketId) (net : Network) (max : Nat) :
    (∀ bytes source, (receiveFrom id max net).1 = .ok (bytes, source) →
      ∃ d, (datagramInlet id).Gives [d] net (receiveFrom id max net).2 ∧ bytes = d.payload.take max ∧
        source = d.source) ∧
    (Fails (receiveFrom id max) net → (datagramInlet id).Gives [] net (receiveFrom id max net).2) := by
  refine attempt_elim (P := fun r => (∀ bytes source, r.1 = .ok (bytes, source) →
      ∃ d, (datagramInlet id).Gives [d] net r.2 ∧ bytes = d.payload.take max ∧ source = d.source) ∧
    ((∃ why, r.1 = .error why) → (datagramInlet id).Gives [] net r.2)) (.inl rfl)
    (fun faults _ why => ⟨nofun, fun _ => gives_datagram_faults id net faults⟩) fun faults _ => ?_
  have same : ({ net with faults := faults } : Network).socket? id = net.socket? id := rfl
  rw [get_run, same]
  rcases held : net.socket? id with _ | ⟨addr, _ | ⟨d, rest⟩⟩ | _ <;> dsimp only [pure, StateT.pure]
  case some.udp.cons =>
    refine ⟨fun bytes source answer => ⟨d, ⟨?_, Iff.rfl, trivial⟩, ?_⟩, nofun⟩
    · have left := socket?_setSocket_self (same.trans held) (.udp addr rest)
      change (datagramInlet id).waiting net = [d] ++ (datagramInlet id).waiting
        (({ net with faults := faults } : Network).setSocket id (.udp addr rest))
      simp [datagramInlet, held, left]
    · cases answer
      exact ⟨rfl, rfl⟩
  all_goals exact ⟨nofun, fun _ => gives_datagram_faults id net faults⟩

theorem datagramCalls (id : SocketId) : DatagramCalls (datagramInlet id) id where
  peekFrom {net} _ := peekFrom_gives id net
  receiveFrom {net} _ max := (receiveFrom_gives id net max).1
  refuse {net} _ max := (receiveFrom_gives id net max).2

end Network

end EtherChip

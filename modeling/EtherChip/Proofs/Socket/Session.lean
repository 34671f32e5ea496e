import EtherChip.Proofs.Host.Inlet
import EtherChip.Proofs.Socket.Operation
import EtherChip.Proofs.Socket.Unread

/-!
# Receiving sessions

A `Session` is a socket that receives, its host, and an account of both: what has arrived at the host,
what the polls have taken, and what the firmware has read out of the receive ring. An `Action` is what can
happen in between: something arrives, the socket is polled, the firmware reads some of the unread bytes
and moves its read position past them, or it does something else that leaves the unread bytes alone.

`Reception` says what one poll of a kind of socket has to do: append what it takes to the unread bytes,
take it from the front of what waits, and leave the socket as it is or close it. Then what has been read
and what is unread are, after every session, what has been taken (`Reception.account`).
-/
namespace EtherChip

theorem RegisterBank.set_comm (r : RegisterBank) {cell other : Nat} (a b : UInt8) (h : cell ≠ other) :
    (r.set cell a).set other b = (r.set other b).set cell a := by
  unfold set
  congr 1
  apply Vector.ext
  intro i populated
  simp only [Vector.getElem_setIfInBounds populated]
  split <;> split <;> first | rfl | omega

namespace Engine

open RingOffset

/-! ## Unread bytes -/

/-- Unread bytes are a matter of the ring and of its two positions. -/
theorem unreadBytes_congr {e e' : Engine} (rx : e'.rx = e.rx) (rxWrite : e'.rxWrite = e.rxWrite)
    (rxRead : e'.rxRead = e.rxRead) : e'.unreadBytes = e.unreadBytes := by
  rw [unreadBytes, unreadBytes, unread, unread, rx, rxWrite, rxRead]

/-- Registers other than the read position are free. -/
theorem unreadBytes_of_regs (e : Engine) {regs : RegisterBank}
    (read : regs.word Cell.rxRead = e.regs.word Cell.rxRead) :
    unreadBytes { e with regs := regs } = e.unreadBytes :=
  unreadBytes_congr rfl rfl (congrArg ofWord read)

/-- The ring always has one byte more than unread bytes and room. -/
theorem length_unreadBytes_add_room (e : Engine) : e.unreadBytes.length + e.rxRoom + 1 = ringSize := by
  have short : e.unread < ringSize := distance_lt _ _
  rw [length_unreadBytes, rxRoom]
  omega

theorem rxRead_appended (e : Engine) (data : Bytes) : (e.appended data).rxRead = e.rxRead := by
  have word : (e.appended data).intake.read = e.intake.read := by rw [intake_appended]; rfl
  exact congrArg ofWord word

/-- **What fits is appended to the unread bytes.** -/
theorem unreadBytes_appended {e : Engine} {data : Bytes} (fits : data.length ≤ e.rxRoom) :
    (e.appended data).unreadBytes = e.unreadBytes ++ data := by
  have total := length_unreadBytes_add_room e
  have holds : (e.intake.append data).Holds e.rxRead (e.unreadBytes ++ data) :=
    (holds_unreadBytes e).append (by omega)
  rw [← intake_appended] at holds
  refine unreadBytes_of_holds ?_
  rw [rxRead_appended]
  exact holds

theorem unreadBytes_deliver {e : Engine} {data : Bytes} (fits : data.length ≤ e.rxRoom) :
    (e.deliver data).unreadBytes = e.unreadBytes ++ data := by
  rw [deliver_eq, if_pos fits]
  exact unreadBytes_appended fits

theorem unreadBytes_closed (e : Engine) : e.closed.unreadBytes = e.unreadBytes := by
  have read : (e.regs.set Cell.status Status.closed.code).word Cell.rxRead = e.regs.word Cell.rxRead :=
    RegisterBank.word_set_of_apart _ _ (by decide) (by decide)
  exact unreadBytes_congr rfl rfl (congrArg ofWord read)

theorem unreadBytes_showReceived (e : Engine) : e.showReceived.unreadBytes = e.unreadBytes :=
  unreadBytes_of_regs e (RegisterBank.word_setWord_of_apart _ _ (by decide))

theorem unreadBytes_showFree (e : Engine) : e.showFree.unreadBytes = e.unreadBytes :=
  unreadBytes_of_regs e (RegisterBank.word_setWord_of_apart _ _ (by decide))

theorem unreadBytes_set (e : Engine) {cell : Nat} (value : UInt8) (high : cell ≠ Cell.rxRead)
    (low : cell ≠ Cell.rxRead + 1) : unreadBytes { e with regs := e.regs.set cell value } = e.unreadBytes :=
  unreadBytes_of_regs e (RegisterBank.word_set_of_apart _ _ high low)

/-- A write to a register cell other than the read position leaves the unread bytes alone. -/
theorem unreadBytes_store (e : Engine) {cell : Nat} (value : UInt8) (high : cell ≠ Cell.rxRead)
    (low : cell ≠ Cell.rxRead + 1) : (e.store cell value).unreadBytes = e.unreadBytes := by
  unfold store
  split
  · exact unreadBytes_set e _ (by decide) (by decide)
  split
  · rfl
  split
  · rw [unreadBytes_showFree]
    exact unreadBytes_set e _ (by decide) (by decide)
  split
  · rw [unreadBytes_showFree]
    exact unreadBytes_set e _ (by decide) (by decide)
  exact unreadBytes_set e value high low

/-! ## Reading -/

/-- The firmware writes both bytes of a read position that is `k` bytes further on. -/
def moveRead (e : Engine) (k : Nat) (lowFirst : Bool) : Engine :=
  let new := (e.rxRead.advance k).toWord
  if lowFirst then (e.store (Cell.rxRead + 1) (lowByte new)).store Cell.rxRead (highByte new)
  else (e.store Cell.rxRead (highByte new)).store (Cell.rxRead + 1) (lowByte new)

/-- In either order the word is written. -/
theorem moveRead_eq (e : Engine) (k : Nat) (lowFirst : Bool) :
    e.moveRead k lowFirst = { e with regs := e.regs.setWord Cell.rxRead (e.rxRead.advance k).toWord } := by
  unfold moveRead RegisterBank.setWord
  dsimp only
  split
  · rw [store_rxRead, store_rxRead_low, RegisterBank.pointerHigh_highByte_toWord]
    dsimp only
    rw [RegisterBank.set_comm _ _ _ (by decide)]
  · rw [store_rxRead_low, store_rxRead, RegisterBank.pointerHigh_highByte_toWord]

/-- **The bytes that are read are the oldest unread ones, and the others are left.** -/
theorem unreadBytes_moveRead {e : Engine} {k : Nat} (le : k ≤ e.unread) (lowFirst : Bool) :
    e.rx.copyOut e.rxRead k ++ (e.moveRead k lowFirst).unreadBytes = e.unreadBytes := by
  have position : (e.moveRead k lowFirst).rxRead = e.rxRead.advance k := by
    rw [moveRead_eq, rxRead]
    exact RegisterBank.pointer_of_word (RegisterBank.word_setWord_self _ _ (by decide))
  have left : (e.moveRead k lowFirst).unreadBytes = e.unreadBytes.drop k := by
    have holds := (holds_unreadBytes e).drop (k := k) (by rwa [length_unreadBytes])
    refine unreadBytes_of_holds ?_
    rw [position]
    refine holds.of_words ?_ ?_ <;> rw [moveRead_eq] <;> rfl
  have small : e.unread ≤ ringSize := Nat.le_of_lt (distance_lt _ _)
  rw [left, unreadBytes, Ring.drop_copyOut _ _ le small, ← Ring.copyOut_add _ _ (by omega), Nat.add_sub_cancel' le]

/-! ## What else the firmware does -/

/-- An event that leaves receiving alone: no OPEN and no SEND, no write to the read position, and no
other way to change what has been received. -/
def Event.SparesUnread (event : Event) : Prop :=
  event.command? ≠ some .openSocket ∧ event.command? ≠ some .send ∧
    match event with
    | .write _ cell _ => cell ≠ Cell.rxRead ∧ cell ≠ Cell.rxRead + 1
    | .command .. | .storeTx .. => True
    | _ => False

instance : DecidablePred Event.SparesUnread
  | .write .. => inferInstanceAs (Decidable (_ ∧ _ ∧ _ ∧ _))
  | .command .. | .storeTx .. => inferInstanceAs (Decidable (_ ∧ _ ∧ True))
  | .storeRx .. | .deliver _ | .poll | .reset | .load _ => inferInstanceAs (Decidable (_ ∧ _ ∧ False))

/-- Nothing about receiving has changed, and no call has been made. -/
structure Same (e e' : Engine) : Prop where
  status : e'.status = e.status
  host : e'.host = e.host
  sendEnd : e'.sendEnd = e.sendEnd
  unreadBytes : e'.unreadBytes = e.unreadBytes

variable {ν : Type} [NetHost ν]

/-- What an event that leaves receiving alone comes to: it changes nothing that matters, or closes the
socket. -/
inductive Spared (e : Engine) (net : ν) : Engine × ν → Prop
  | same (e' : Engine) : Same e e' → Spared e net (e', net)
  | closed (net' : ν) : Spared e net (e.closed, net')

theorem same_refl (e : Engine) : Same e e := ⟨rfl, rfl, rfl, rfl⟩

theorem command_spared {e : Engine} (cfg : NetConfig) {code : UInt8} (net : ν) (opened : e.status ≠ .init)
    (noOpen : Command.ofCode? code ≠ some .openSocket) (noSend : Command.ofCode? code ≠ some .send) :
    Spared e net (e.command cfg code net) := by
  generalize run : (e.command cfg code : StateM ν Engine) = x
  unfold command at run
  generalize Command.ofCode? code = command at run noOpen noSend
  split at run <;> subst run
  case h_1 => exact absurd rfl noOpen
  case h_2 status | h_3 status | h_4 status => exact absurd status opened
  case h_10 | h_11 => exact absurd rfl noSend
  case h_12 | h_13 => exact .same e.showReceived ⟨rfl, rfl, rfl, unreadBytes_showReceived e⟩
  case h_14 => exact .same e (same_refl e)
  all_goals exact .closed _

theorem same_store (e : Engine) {cell : Nat} (value : UInt8) (high : cell ≠ Cell.rxRead)
    (low : cell ≠ Cell.rxRead + 1) : Same e (e.store cell value) where
  status := status_store e cell value
  host := (apart_store e cell value).host
  sendEnd := (apart_store e cell value).sendEnd
  unreadBytes := unreadBytes_store e value high low

/-- **What else the firmware does leaves the unread bytes alone.** -/
theorem step_spared {e : Engine} {event : Event} (spares : event.SparesUnread) (opened : e.status ≠ .init) (net : ν) :
    Spared e net (e.step event net) := by
  obtain ⟨noOpen, noSend, plain⟩ := spares
  cases event with
  | write cfg cell code =>
    dsimp only [Event.command?] at noOpen noSend
    rw [step, writeRegister]
    by_cases command : cell = Cell.command
    · rw [if_pos command] at noOpen noSend ⊢
      exact command_spared cfg net opened noOpen noSend
    · rw [if_neg command]
      exact .same _ (same_store e code plain.1 plain.2)
  | command cfg code => exact command_spared cfg net opened noOpen noSend
  | storeTx o value => exact .same _ ⟨rfl, rfl, rfl, rfl⟩
  | storeRx | deliver | poll | reset | load => exact plain.elim

theorem same_moveRead (e : Engine) (k : Nat) (lowFirst : Bool) :
    (e.moveRead k lowFirst).status = e.status ∧ (e.moveRead k lowFirst).host = e.host ∧
    (e.moveRead k lowFirst).sendEnd = e.sendEnd := by
  rw [moveRead_eq]
  exact ⟨rfl, rfl, rfl⟩

end Engine

/-! ## Sessions -/

/-- A socket that receives, its host, and an account of what has been received. -/
structure Session (ν α : Type) where
  socket : Engine
  net : ν
  /-- What has arrived at the host, with what waited there at the start. -/
  arrived : List α
  /-- What the polls have taken from the host. -/
  taken : List α := []
  /-- What the firmware has read out of the receive ring. -/
  read : Bytes := []

/-- What can happen in a session. -/
inductive Action (ν α : Type) where
  /-- Elements arrive at the host, or the other end closes; the host is then in the given state. -/
  | arrives (more : List α) (net : ν)
  | polls
  /-- The firmware reads the oldest unread bytes and moves its read position past them. -/
  | reads (k : Nat) (lowFirst : Bool)
  /-- The firmware does something else. -/
  | does (event : Engine.Event)

namespace Session

variable {ν α : Type}

def start (inlet : Inlet ν α) (e : Engine) (net : ν) : Session ν α :=
  { socket := e, net := net, arrived := inlet.waiting net }

/-- What may happen next: the environment keeps to the inlet, and the firmware reads unread bytes only and
otherwise leaves receiving alone. -/
def Permits (inlet : Inlet ν α) (s : Session ν α) : Action ν α → Prop
  | .arrives more net => inlet.Grows more s.net net
  | .polls => True
  | .reads k _ => k ≤ s.socket.unread
  | .does event => event.SparesUnread

instance [DecidableEq α] (inlet : Inlet ν α) [DecidablePred inlet.ended] [DecidablePred inlet.sound]
    (s : Session ν α) : DecidablePred (s.Permits inlet)
  | .arrives more net => inferInstanceAs (Decidable (inlet.Grows more s.net net))
  | .polls => .isTrue trivial
  | .reads k _ => inferInstanceAs (Decidable (k ≤ s.socket.unread))
  | .does event => inferInstanceAs (Decidable event.SparesUnread)

/-- A socket that receives from an inlet. -/
structure Receiving (inlet : Inlet ν α) (status : Status) (host : HostSocket) (e : Engine) (net : ν) : Prop where
  status : e.status = status
  host : e.host = host
  idle : e.sendEnd = none
  sound : inlet.sound net

theorem Receiving.moved {inlet : Inlet ν α} {status : Status} {host : HostSocket} {e : Engine} {net net' : ν}
    (h : Receiving inlet status host e net) (sound : inlet.sound net') : Receiving inlet status host e net' :=
  ⟨h.status, h.host, h.idle, sound⟩

theorem Receiving.deliver {inlet : Inlet ν α} {status : Status} {host : HostSocket} {e : Engine} {net net' : ν}
    (h : Receiving inlet status host e net) (data : Bytes) (sound : inlet.sound net') :
    Receiving inlet status host (e.deliver data) net' where
  status := (Engine.status_deliver e data).trans h.status
  host := (Engine.apart_deliver e data).host.trans h.host
  idle := (Engine.apart_deliver e data).sendEnd.trans h.idle
  sound := sound

/-- The account of a session. What has been read and what is unread is what was unread `before` and what
has been taken, as it is `stored`; what has been taken came first; and the rest waits, unless the socket
is closed. -/
structure Balanced (inlet : Inlet ν α) (status : Status) (host : HostSocket) (stored : α → Bytes) (before : Bytes)
    (s : Session ν α) : Prop where
  bytes : s.read ++ s.socket.unreadBytes = before ++ s.taken.flatMap stored
  first : s.taken <+: s.arrived
  state : Receiving inlet status host s.socket s.net ∧ s.arrived = s.taken ++ inlet.waiting s.net ∨
    s.socket.status = .closed

theorem balanced_start {inlet : Inlet ν α} {status : Status} {host : HostSocket} {stored : α → Bytes} {e : Engine}
    {net : ν} (receiving : Receiving inlet status host e net) :
    Balanced inlet status host stored e.unreadBytes (start inlet e net) := by
  refine ⟨?_, List.nil_prefix, .inl ⟨receiving, rfl⟩⟩
  show [] ++ e.unreadBytes = e.unreadBytes ++ [].flatMap stored
  rw [List.flatMap_nil, List.append_nil, List.nil_append]

variable [NetHost ν]

/-- One action. What a poll takes is a function of the socket and the host. -/
def act (takes : Engine → ν → List α) (s : Session ν α) : Action ν α → Session ν α
  | .arrives more net => { s with net := net, arrived := s.arrived ++ more }
  | .polls =>
    let next := s.socket.poll s.net
    { s with socket := next.1, net := next.2, taken := s.taken ++ takes s.socket s.net }
  | .reads k lowFirst =>
    { s with socket := s.socket.moveRead k lowFirst, read := s.read ++ s.socket.rx.copyOut s.socket.rxRead k }
  | .does event =>
    let next := s.socket.step event s.net
    { s with socket := next.1, net := next.2 }

def run (takes : Engine → ν → List α) (s : Session ν α) (actions : List (Action ν α)) : Session ν α :=
  actions.foldl (act takes) s

/-- Every action of a run is one that may happen. -/
def Runs (inlet : Inlet ν α) (takes : Engine → ν → List α) (s : Session ν α) : List (Action ν α) → Prop
  | [] => True
  | action :: later => s.Permits inlet action ∧ (s.act takes action).Runs inlet takes later

instance decidableRuns [DecidableEq α] (inlet : Inlet ν α) [DecidablePred inlet.ended] [DecidablePred inlet.sound]
    (takes : Engine → ν → List α) (s : Session ν α) :
    (actions : List (Action ν α)) → Decidable (s.Runs inlet takes actions)
  | [] => .isTrue trivial
  | action :: later =>
    have := decidableRuns inlet takes (s.act takes action) later
    inferInstanceAs (Decidable (_ ∧ _))

/-- What a kind of receiving socket has to do in a poll: append what it takes, take it from the front of
what waits, and go on or close. -/
structure Polls (inlet : Inlet ν α) (status : Status) (host : HostSocket) (takes : Engine → ν → List α)
    (stored : α → Bytes) : Prop where
  opened : status ≠ .init
  closed : ∀ {e : Engine} {net : ν}, e.status = .closed → takes e net = []
  stores : ∀ {e : Engine} {net : ν}, Receiving inlet status host e net →
    (e.poll net).1.unreadBytes = e.unreadBytes ++ (takes e net).flatMap stored
  goes : ∀ {e : Engine} {net : ν}, Receiving inlet status host e net →
    Receiving inlet status host (e.poll net).1 (e.poll net).2 ∧ inlet.Gives (takes e net) net (e.poll net).2 ∨
    (e.poll net).1.status = .closed ∧ takes e net = []

variable {inlet : Inlet ν α} {status : Status} {host : HostSocket} {takes : Engine → ν → List α}
  {stored : α → Bytes} {before : Bytes} {s : Session ν α}

theorem Balanced.ne_init (h : Balanced inlet status host stored before s)
    (polls : Polls inlet status host takes stored) : s.socket.status ≠ .init := by
  rcases h.state with ⟨receiving, -⟩ | closed
  · rw [receiving.status]
    exact polls.opened
  · rw [closed]
    decide

theorem Balanced.arrives (h : Balanced inlet status host stored before s) {more : List α} {net : ν}
    (grows : inlet.Grows more s.net net) :
    Balanced inlet status host stored before (s.act takes (.arrives more net)) := by
  refine ⟨h.bytes, h.first.trans (List.prefix_append _ _), h.state.imp_left fun ⟨receiving, rest⟩ => ⟨?_, ?_⟩⟩
  · exact receiving.moved grows.sound
  · show s.arrived ++ more = s.taken ++ inlet.waiting net
    rw [rest, grows.waiting, List.append_assoc]

theorem Balanced.polls (h : Balanced inlet status host stored before s)
    (polls : Polls inlet status host takes stored) :
    Balanced inlet status host stored before (s.act takes .polls) := by
  obtain ⟨bytes, first, ⟨receiving, rest⟩ | closed⟩ := h
  · have stores := polls.stores receiving
    have counted : s.read ++ (s.socket.poll s.net).1.unreadBytes =
        before ++ (s.taken ++ takes s.socket s.net).flatMap stored := by
      rw [stores, ← List.append_assoc, bytes, List.append_assoc, List.flatMap_append]
    rcases polls.goes receiving with ⟨receiving', gives⟩ | ⟨closed, nothing⟩
    · have later : s.arrived = (s.taken ++ takes s.socket s.net) ++ inlet.waiting (s.socket.poll s.net).2 := by
        rw [rest, gives.waiting, List.append_assoc]
      exact ⟨counted, ⟨_, later.symm⟩, .inl ⟨receiving', later⟩⟩
    · refine ⟨counted, ?_, .inr closed⟩
      show s.taken ++ takes s.socket s.net <+: s.arrived
      rw [nothing, List.append_nil]
      exact first
  · have nothing : takes s.socket s.net = [] := polls.closed closed
    have still : s.socket.poll s.net = (s.socket, s.net) := by
      rw [Engine.poll, closed]
      rfl
    rw [act, nothing, still, List.append_nil]
    exact ⟨bytes, first, .inr closed⟩

theorem Balanced.reads (h : Balanced inlet status host stored before s) {k : Nat} (unread : k ≤ s.socket.unread)
    (lowFirst : Bool) : Balanced inlet status host stored before (s.act takes (.reads k lowFirst)) := by
  obtain ⟨sameStatus, sameHost, sameEnd⟩ := Engine.same_moveRead s.socket k lowFirst
  refine ⟨?_, h.first, ?_⟩
  · show (s.read ++ s.socket.rx.copyOut s.socket.rxRead k) ++ (s.socket.moveRead k lowFirst).unreadBytes = _
    rw [List.append_assoc, Engine.unreadBytes_moveRead unread]
    exact h.bytes
  · refine h.state.imp (fun ⟨receiving, rest⟩ => ⟨?_, rest⟩) sameStatus.trans
    exact ⟨sameStatus.trans receiving.status, sameHost.trans receiving.host, sameEnd.trans receiving.idle,
      receiving.sound⟩

theorem Balanced.does (h : Balanced inlet status host stored before s) (opened : s.socket.status ≠ .init)
    {event : Engine.Event} (spares : event.SparesUnread) :
    Balanced inlet status host stored before (s.act takes (.does event)) := by
  have spared := Engine.step_spared spares opened s.net
  rw [act]
  generalize s.socket.step event s.net = next at spared ⊢
  cases spared with
  | same e' same =>
    refine ⟨?_, h.first, h.state.imp (fun ⟨receiving, rest⟩ => ⟨?_, rest⟩) same.status.trans⟩
    · show s.read ++ e'.unreadBytes = _
      rw [same.unreadBytes]
      exact h.bytes
    · exact ⟨same.status.trans receiving.status, same.host.trans receiving.host, same.sendEnd.trans receiving.idle,
        receiving.sound⟩
  | closed net' =>
    refine ⟨?_, h.first, .inr rfl⟩
    show s.read ++ s.socket.closed.unreadBytes = _
    rw [Engine.unreadBytes_closed]
    exact h.bytes

/-- **Step.** Every action keeps the account. -/
theorem Balanced.act (h : Balanced inlet status host stored before s) (polls : Polls inlet status host takes stored)
    {action : Action ν α} (permits : s.Permits inlet action) :
    Balanced inlet status host stored before (s.act takes action) := by
  cases action with
  | arrives more net => exact h.arrives permits
  | polls => exact h.polls polls
  | reads k lowFirst => exact h.reads permits lowFirst
  | does event => exact h.does (h.ne_init polls) permits

/-- **Run.** So does every session. -/
theorem Balanced.run (h : Balanced inlet status host stored before s) (polls : Polls inlet status host takes stored)
    {actions : List (Action ν α)} (runs : s.Runs inlet takes actions) :
    Balanced inlet status host stored before (s.run takes actions) := by
  induction actions generalizing s with
  | nil => exact h
  | cons action later ih => exact ih (h.act polls runs.1) runs.2

end Session

end EtherChip

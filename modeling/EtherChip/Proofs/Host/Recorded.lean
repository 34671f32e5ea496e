import EtherChip.Host.Socket

/-!
# A host with a record

`Recorded ν` is a host `ν` that also records every call by which bytes are handed to it, with the
answer. The calls themselves, and so everything that a program does, are those of `ν`. A program
that makes no such call is `Silent`. `writeAll_handed` is the account of a stream write: what was
taken and what is left make up what was to be written, and something is only left because the host
refused it.
-/
namespace EtherChip

/-- A call that hands bytes to the host, with its answer. -/
inductive Handover where
  | write (id : SocketId) (data : Bytes) (answer : Except Errno Nat)
  | datagram (id : SocketId) (data : Bytes) (dest : Endpoint) (answer : Except Errno Unit)

/-- Bytes that a stream has taken in a call. -/
def Handover.taken : Handover → Bytes
  | write _ data (.ok n) => data.take n
  | _ => []

/-- Bytes that streams have taken in several calls. -/
def takenBytes (calls : List Handover) : Bytes := calls.flatMap Handover.taken

/-- A write that has failed for good: the stream took nothing, or refused it otherwise than for now
or because of a signal. -/
def Handover.Failed : Handover → Prop
  | write _ _ (.ok n) => n = 0
  | write _ _ (.error e) => e ≠ .eagain ∧ e ≠ .eintr
  | datagram .. => False

instance : DecidablePred Handover.Failed
  | .write _ _ (.ok n) => inferInstanceAs (Decidable (n = 0))
  | .write _ _ (.error e) => inferInstanceAs (Decidable (e ≠ .eagain ∧ e ≠ .eintr))
  | .datagram .. => .isFalse id

@[simp] theorem takenBytes_append (calls later : List Handover) :
    takenBytes (calls ++ later) = takenBytes calls ++ takenBytes later := List.flatMap_append

/-- A host that keeps a record of what was handed to it. -/
structure Recorded (ν : Type) where
  host : ν
  handed : List Handover := []

namespace Recorded

variable {ν α β : Type}

/-- A host with an empty record. -/
def fresh (host : ν) : Recorded ν := { host := host }

/-- A call that is not recorded. -/
def relay (call : StateM ν α) : StateM (Recorded ν) α := fun r =>
  let (answer, host) := call r.host
  (answer, { r with host := host })

/-- A call that is recorded with its answer. -/
def record (call : StateM ν α) (entry : α → Handover) : StateM (Recorded ν) α := fun r =>
  let (answer, host) := call r.host
  (answer, { host := host, handed := r.handed ++ [entry answer] })

instance [NetHost ν] : NetHost (Recorded ν) where
  tcpSocket := relay NetHost.tcpSocket
  udpSocket := relay NetHost.udpSocket
  bind id addr := relay (NetHost.bind id addr)
  listen id backlog := relay (NetHost.listen id backlog)
  connect id dest := relay (NetHost.connect id dest)
  takeError id := relay (NetHost.takeError id)
  peerName id := relay (NetHost.peerName id)
  setNonBlocking id := relay (NetHost.setNonBlocking id)
  setReuseAddress id := relay (NetHost.setReuseAddress id)
  setNoDelay id := relay (NetHost.setNoDelay id)
  accept id := relay (NetHost.accept id)
  peek id len := relay (NetHost.peek id len)
  read id max := relay (NetHost.read id max)
  write id data := record (NetHost.write id data) (.write id data)
  interruptions id data r := NetHost.interruptions id data r.host
  interruptions_lt interrupted := NetHost.interruptions_lt interrupted
  peekFrom id len := relay (NetHost.peekFrom id len)
  receiveFrom id max := relay (NetHost.receiveFrom id max)
  sendTo id data dest := record (NetHost.sendTo id data dest) (.datagram id data dest)
  joinGroup id group iface := relay (NetHost.joinGroup id group iface)
  close id := relay (NetHost.close id)
  localAddr r id := NetHost.localAddr r.host id
  clock r := NetHost.clock r.host

/-! ## Programs that hand nothing over -/

/-- A program that hands nothing to the host. -/
def Silent (x : StateM (Recorded ν) α) : Prop := ∀ r, (x r).2.handed = r.handed

namespace Silent

theorem relay (call : StateM ν α) : Silent (relay call) := fun _ => rfl

theorem pure (a : α) : Silent (Pure.pure a : StateM (Recorded ν) α) := fun _ => rfl

theorem bind {x : StateM (Recorded ν) α} {f : α → StateM (Recorded ν) β} (hx : Silent x)
    (hf : ∀ a, Silent (f a)) : Silent (x >>= f) :=
  fun r => (hf _ _).trans (hx r)

end Silent

variable [NetHost ν]

theorem silent_close (s : HostSocket) : Silent (s.close : StateM (Recorded ν) Unit) := by
  unfold HostSocket.close
  split
  · exact .pure _
  · exact .relay _

theorem silent_receiveStream (s : HostSocket) (max : Nat) :
    Silent (s.receiveStream max : StateM (Recorded ν) StreamEvent) := by
  unfold HostSocket.receiveStream
  split
  · refine .bind (.relay _) fun found => ?_
    split
    · exact .pure _
    · exact .pure _
    · split
      · exact .pure _
      · refine .bind (.relay _) fun answer => ?_
        split <;> exact .pure _
  · exact .pure _

theorem silent_receiveDatagram (s : HostSocket) (free : Nat) :
    Silent (s.receiveDatagram free : StateM (Recorded ν) _) := by
  unfold HostSocket.receiveDatagram
  split
  · refine .bind (.relay _) fun found => ?_
    split
    · split <;> exact .pure _
    · split
      · refine .bind (.relay _) fun answer => ?_
        split <;> exact .pure _
      · split
        · exact .pure _
        · refine .bind (.relay _) fun answer => ?_
          split <;> exact .pure _
  · exact .pure _

/-- A datagram is handed over in one call. -/
theorem sendDatagram_handed (id : SocketId) (data : Bytes) (dest : Endpoint) (r : Recorded ν) :
    ∃ answer, ((HostSocket.datagram id).sendDatagram data dest r).2.handed =
      r.handed ++ [.datagram id data dest answer] := by
  have asked : (NetHost.sendTo id data dest : StateM (Recorded ν) _) r =
      record (NetHost.sendTo id data dest) (.datagram id data dest) r := rfl
  obtain ⟨answer, host, answered⟩ : ∃ answer host, NetHost.sendTo id data dest r.host = (answer, host) :=
    ⟨_, _, rfl⟩
  refine ⟨answer, ?_⟩
  simp only [HostSocket.sendDatagram, bind, StateT.bind, asked, record, answered]
  cases answer <;> rfl

/-! ## Writing to a stream -/

/-- Calls that write to one stream. -/
def WritesTo (id : SocketId) (calls : List Handover) : Prop :=
  ∀ call ∈ calls, ∃ data answer, call = .write id data answer

theorem WritesTo.append {id : SocketId} {calls later : List Handover} (h : WritesTo id calls)
    (h' : WritesTo id later) : WritesTo id (calls ++ later) := fun call mem =>
  (List.mem_append.mp mem).elim (h call) (h' call)

theorem writesTo_nil (id : SocketId) : WritesTo id [] := nofun

theorem writesTo_one (id : SocketId) (data : Bytes) (answer : Except Errno Nat) : WritesTo id [.write id data answer] :=
  fun _ mem => ⟨_, _, List.mem_singleton.mp mem⟩

/-- A write is recorded with its answer. -/
theorem handed_of_write {id : SocketId} {data : Bytes} {r after : Recorded ν} {answer : Except Errno Nat}
    (answered : NetHost.write id data r = (answer, after)) : after.handed = r.handed ++ [.write id data answer] := by
  cases answered
  rfl

/-- **Account of a stream write.** What is taken and what is left make up the data, the answer says
how much was taken, and something is left only because the host refused it. -/
theorem writeAll_handed (id : SocketId) (data : Bytes) (sent : Nat) (r : Recorded ν) :
    ∃ calls rest, (HostSocket.writeAll id data sent r).2.handed = r.handed ++ calls ∧
      WritesTo id calls ∧ takenBytes calls ++ rest = data ∧
      ∀ n, (HostSocket.writeAll id data sent r).1 = .ok n →
        n = sent + (takenBytes calls).length ∧
        (rest = [] ∨ calls.getLast? = some (.write id rest (.error .eagain))) := by
  induction data, sent, r using HostSocket.writeAll_induct with
  | done sent r =>
    rw [HostSocket.writeAll_nil]
    refine ⟨[], [], (List.append_nil _).symm, writesTo_nil id, rfl, fun n h => ?_⟩
    cases h
    exact ⟨rfl, .inl rfl⟩
  | stuck sent r b rest after answered =>
    rw [HostSocket.writeAll_cons answered]
    exact ⟨_, b :: rest, handed_of_write answered, writesTo_one id (b :: rest) _, rfl, nofun⟩
  | taken sent r b rest n after answered ih =>
    -- A part was taken, and the rest is written in the same way.
    obtain ⟨calls, left, handed, writes, whole, counted⟩ := ih
    rw [HostSocket.writeAll_cons answered]
    refine ⟨.write id (b :: rest) (.ok (n + 1)) :: calls, left, ?_, (writesTo_one id (b :: rest) _).append writes, ?_, fun m h => ?_⟩
    · rw [handed, handed_of_write answered, List.append_assoc, List.singleton_append]
    · show b :: rest.take n ++ takenBytes calls ++ left = _
      rw [List.append_assoc, whole, List.cons_append, List.take_append_drop]
    · obtain ⟨total, reason⟩ := counted m h
      refine ⟨?_, reason.imp_right fun last => ?_⟩
      · show m = sent + (b :: rest.take n ++ takenBytes calls).length
        simp only [List.length_append, List.length_cons, List.length_take]
        omega
      · rw [List.getLast?_cons, last]
        rfl
  | waits sent r b rest after answered =>
    rw [HostSocket.writeAll_cons answered]
    refine ⟨_, b :: rest, handed_of_write answered, writesTo_one id (b :: rest) _, rfl, fun n h => ?_⟩
    cases h
    exact ⟨rfl, .inr rfl⟩
  | interrupted sent r b rest after answered ih =>
    -- Nothing was taken, and all of it is written once more.
    obtain ⟨calls, left, handed, writes, whole, counted⟩ := ih
    rw [HostSocket.writeAll_interrupted answered]
    refine ⟨.write id (b :: rest) (.error .eintr) :: calls, left, ?_, (writesTo_one id (b :: rest) _).append writes, whole,
      fun m h => ?_⟩
    · rw [handed, handed_of_write answered, List.append_assoc, List.singleton_append]
    · obtain ⟨total, reason⟩ := counted m h
      refine ⟨total, reason.imp_right fun last => ?_⟩
      rw [List.getLast?_cons, last]
      rfl
  | failed sent r b rest e after answered wait again =>
    rw [HostSocket.writeAll_cons answered]
    simp only [if_neg wait, if_neg again]
    exact ⟨_, b :: rest, handed_of_write answered, writesTo_one id (b :: rest) _, rfl, nofun⟩

theorem failed_nil : ¬ ∃ call ∈ ([] : List Handover), call.Failed := by simp

theorem failed_cons {call : Handover} {calls : List Handover} :
    (∃ c ∈ call :: calls, c.Failed) ↔ call.Failed ∨ ∃ c ∈ calls, c.Failed := by
  simp only [List.mem_cons, or_and_right, exists_or, exists_eq_left]

/-- The calls of a write that goes on after the first one. -/
theorem exists_later {id : SocketId} {b : UInt8} {rest data : Bytes} {sent : Nat} {r after : Recorded ν}
    {answer : Except Errno Nat} (answered : NetHost.write id (b :: rest) r = (answer, after)) {calls : List Handover}
    (handed : (HostSocket.writeAll id data sent after).2.handed = r.handed ++ calls) :
    ∃ later, calls = .write id (b :: rest) answer :: later ∧
      (HostSocket.writeAll id data sent after).2.handed = after.handed ++ later := by
  obtain ⟨later, -, appended, -⟩ := writeAll_handed id data sent after
  refine ⟨later, ?_, appended⟩
  rw [appended, handed_of_write answered, List.append_assoc] at handed
  exact (List.append_cancel_left handed).symm

/-- The one call of a write that ends with it. -/
theorem eq_singleton_of_write {id : SocketId} {data : Bytes} {r after : Recorded ν} {answer : Except Errno Nat}
    (answered : NetHost.write id data r = (answer, after)) {calls : List Handover}
    (handed : after.handed = r.handed ++ calls) : calls = [.write id data answer] := by
  rw [handed_of_write answered] at handed
  exact (List.append_cancel_left handed).symm

/-- **Failure of a stream write.** The answer is an error exactly if one of the calls has failed for
good. -/
theorem writeAll_failed (id : SocketId) (data : Bytes) (sent : Nat) (r : Recorded ν) {calls : List Handover}
    (handed : (HostSocket.writeAll id data sent r).2.handed = r.handed ++ calls) :
    (∃ call ∈ calls, call.Failed) ↔ ∃ e, (HostSocket.writeAll id data sent r).1 = .error e := by
  induction data, sent, r using HostSocket.writeAll_induct generalizing calls with
  | done sent r =>
    rw [HostSocket.writeAll_nil] at handed ⊢
    obtain rfl : calls = [] := List.self_eq_append_right.mp handed
    exact ⟨fun failed => absurd failed failed_nil, nofun⟩
  | stuck sent r b rest after answered =>
    rw [HostSocket.writeAll_cons answered] at handed ⊢
    obtain rfl := eq_singleton_of_write answered handed
    exact ⟨fun _ => ⟨_, rfl⟩, fun _ => failed_cons.mpr (.inl rfl)⟩
  | taken sent r b rest n after answered ih =>
    rw [HostSocket.writeAll_cons answered] at handed ⊢
    obtain ⟨later, rfl, appended⟩ := exists_later answered handed
    have worked : ¬ (Handover.write id (b :: rest) (.ok (n + 1))).Failed := Nat.succ_ne_zero n
    rw [← ih appended, failed_cons, or_iff_right worked]
  | waits sent r b rest after answered =>
    rw [HostSocket.writeAll_cons answered] at handed ⊢
    obtain rfl := eq_singleton_of_write answered handed
    have waits : ¬ (Handover.write id (b :: rest) (.error .eagain)).Failed := fun failed => failed.1 rfl
    exact ⟨fun failed => absurd (failed_cons.mp failed) (not_or.mpr ⟨waits, failed_nil⟩), nofun⟩
  | interrupted sent r b rest after answered ih =>
    rw [HostSocket.writeAll_interrupted answered] at handed ⊢
    obtain ⟨later, rfl, appended⟩ := exists_later answered handed
    have interrupted : ¬ (Handover.write id (b :: rest) (.error .eintr)).Failed := fun failed => failed.2 rfl
    rw [← ih appended, failed_cons, or_iff_right interrupted]
  | failed sent r b rest e after answered wait again =>
    rw [HostSocket.writeAll_cons answered] at handed ⊢
    simp only [if_neg wait, if_neg again] at handed ⊢
    obtain rfl := eq_singleton_of_write answered handed
    exact ⟨fun _ => ⟨_, rfl⟩, fun _ => failed_cons.mpr (.inl ⟨wait, again⟩)⟩

end Recorded

end EtherChip

import EtherChip.Host.Socket
import EtherChip.Proofs.Host.Outcome

/-!
# A host with an account of its sockets

`Ledger ν` is a host `ν` that also keeps account of the sockets that it has opened, by creating or by
accepting them, and of those that it has closed. A program conserves them if what it was responsible for
and what it has opened is what it has closed and what its result is responsible for, each socket as often
(`Conserves`). So nothing is leaked and nothing is closed twice, and the law is closed under sequencing and
under whatever else is held meanwhile (`Conserves.beside`). Every operation on a host socket obeys it, on
every path that the host's answers can send it.
-/
namespace EtherChip

/-- A host that keeps account of its sockets. -/
structure Ledger (ν : Type) where
  host : ν
  opened : List SocketId := []
  closed : List SocketId := []

/-- The identities that a host socket is responsible for: one, or none. -/
abbrev HostSocket.owned (s : HostSocket) : List SocketId := s.id?.toList

namespace Ledger

variable {ν α β : Type}

/-- A host that has opened and closed nothing yet. -/
def fresh (host : ν) : Ledger ν := { host := host }

/-- The world does something to the host; the account stays. -/
def world (l : Ledger ν) (change : ν → ν) : Ledger ν := { l with host := change l.host }

theorem world_id (l : Ledger ν) : l.world id = l := rfl

/-- A call that opens and closes nothing. -/
def relay (call : StateM ν α) : StateM (Ledger ν) α := fun l =>
  let (answer, host) := call l.host
  (answer, { l with host := host })

/-- A call that opens a socket if it succeeds. -/
def opens (call : StateM ν (Except Errno α)) (id : α → SocketId) : StateM (Ledger ν) (Except Errno α) := fun l =>
  let (answer, host) := call l.host
  (answer, { l with host := host, opened := l.opened ++ (answer.toOption.map id).toList })

instance [NetHost ν] : NetHost (Ledger ν) where
  tcpSocket := opens NetHost.tcpSocket id
  udpSocket := opens NetHost.udpSocket id
  bind id addr := relay (NetHost.bind id addr)
  listen id backlog := relay (NetHost.listen id backlog)
  connect id dest := relay (NetHost.connect id dest)
  takeError id := relay (NetHost.takeError id)
  peerName id := relay (NetHost.peerName id)
  setNonBlocking id := relay (NetHost.setNonBlocking id)
  setReuseAddress id := relay (NetHost.setReuseAddress id)
  setNoDelay id := relay (NetHost.setNoDelay id)
  accept id := opens (NetHost.accept id) Prod.fst
  peek id len := relay (NetHost.peek id len)
  read id max := relay (NetHost.read id max)
  write id data := relay (NetHost.write id data)
  interruptions id data l := NetHost.interruptions id data l.host
  interruptions_lt interrupted := NetHost.interruptions_lt interrupted
  peekFrom id len := relay (NetHost.peekFrom id len)
  receiveFrom id max := relay (NetHost.receiveFrom id max)
  sendTo id data dest := relay (NetHost.sendTo id data dest)
  joinGroup id group iface := relay (NetHost.joinGroup id group iface)
  close id := fun l => ((), { l with host := (NetHost.close id l.host).2, closed := l.closed ++ [id] })
  localAddr l id := NetHost.localAddr l.host id
  clock l := NetHost.clock l.host

/-! ## The law -/

/-- A program that is responsible for the sockets `before` closes, or leaves to its result, each of them
and each that it opens, exactly once. -/
def Conserves (x : StateM (Ledger ν) α) (before : List SocketId) (after : α → List SocketId) : Prop :=
  ∀ l, ∃ opened closed, (x l).2.opened = l.opened ++ opened ∧ (x l).2.closed = l.closed ++ closed ∧
    (before ++ opened).Perm (closed ++ after (x l).1)

namespace Conserves

open scoped List

theorem pure {a : α} {before : List SocketId} {after : α → List SocketId} (same : before.Perm (after a)) :
    Conserves (Pure.pure a : StateM (Ledger ν) α) before after := fun l =>
  ⟨[], [], (List.append_nil _).symm, (List.append_nil _).symm, by rwa [List.append_nil]⟩

theorem bind {x : StateM (Ledger ν) α} {f : α → StateM (Ledger ν) β} {before : List SocketId}
    {mid : α → List SocketId} {after : β → List SocketId} (first : Conserves x before mid)
    (rest : ∀ a, Conserves (f a) (mid a) after) : Conserves (x >>= f) before after := by
  intro l
  obtain ⟨opened, closed, opens, closes, balance⟩ := first l
  obtain ⟨opened', closed', opens', closes', balance'⟩ := rest (x l).1 (x l).2
  refine ⟨opened ++ opened', closed ++ closed', ?_, ?_, ?_⟩
  · rw [bind_run, opens', opens, List.append_assoc]
  · rw [bind_run, closes', closes, List.append_assoc]
  · rw [bind_run]
    calc before ++ (opened ++ opened')
        = (before ++ opened) ++ opened' := (List.append_assoc ..).symm
      _ ~ (closed ++ mid (x l).1) ++ opened' := balance.append_right opened'
      _ = closed ++ (mid (x l).1 ++ opened') := List.append_assoc ..
      _ ~ closed ++ (closed' ++ after (f (x l).1 (x l).2).1) := balance'.append_left closed
      _ = (closed ++ closed') ++ after (f (x l).1 (x l).2).1 := (List.append_assoc ..).symm

/-- Looking at the host changes nothing. -/
theorem get {f : Ledger ν → StateM (Ledger ν) α} {before : List SocketId} {after : α → List SocketId}
    (h : ∀ l, Conserves (f l) before after) : Conserves (MonadState.get >>= f) before after := fun l => h l l

/-- The order in which sockets are held does not matter. -/
theorem perm {x : StateM (Ledger ν) α} {before before' : List SocketId} {after after' : α → List SocketId}
    (h : Conserves x before after) (same : before'.Perm before) (same' : ∀ a, (after a).Perm (after' a)) :
    Conserves x before' after' := by
  intro l
  obtain ⟨opened, closed, opens, closes, balance⟩ := h l
  exact ⟨opened, closed, opens, closes,
    ((same.append_right opened).trans balance).trans ((same' _).append_left closed)⟩

/-- Sockets that are held besides stay. -/
theorem beside {x : StateM (Ledger ν) α} {before : List SocketId} {after : α → List SocketId}
    (h : Conserves x before after) (others : List SocketId) :
    Conserves x (others ++ before) fun a => others ++ after a := by
  intro l
  obtain ⟨opened, closed, opens, closes, balance⟩ := h l
  refine ⟨opened, closed, opens, closes, ?_⟩
  rw [List.append_assoc]
  exact (balance.append_left others).trans (List.perm_append_comm_assoc others closed _)

theorem relay (call : StateM ν α) (held : List SocketId) : Conserves (Ledger.relay call) held fun _ => held := fun l =>
  ⟨[], [], (List.append_nil _).symm, (List.append_nil _).symm, by rw [List.append_nil]; exact .refl _⟩

theorem opens (call : StateM ν (Except Errno α)) (id : α → SocketId) :
    Conserves (Ledger.opens call id) [] fun answer => (answer.toOption.map id).toList := fun l =>
  ⟨((call l.host).1.toOption.map id).toList, [], rfl, (List.append_nil _).symm, .refl _⟩

end Conserves

variable [NetHost ν]

theorem conserves_closeId (id : SocketId) :
    Conserves (NetHost.close id : StateM (Ledger ν) Unit) [id] fun _ => [] := fun _ =>
  ⟨[], [id], (List.append_nil _).symm, rfl, .refl _⟩

/-! ## Operations on a host socket -/

open HostSocket

/-- What is held after an operation that may fail and then leaves things as they were. -/
def ownedOr (before : List SocketId) : Except HostError HostSocket → List SocketId
  | .ok s => s.owned
  | .error _ => before

theorem conserves_close (s : HostSocket) : Conserves (s.close : StateM (Ledger ν) Unit) s.owned fun _ => [] := by
  cases s with
  | none => exact .pure (.refl _)
  | tcp id | connecting id | listener id | stream id | datagram id => exact conserves_closeId id

/-- What is left of a new socket by the answer to what was done with it. -/
def kept (id : SocketId) : Except Errno Unit → List SocketId
  | .ok _ => [id]
  | .error _ => []

/-- A new socket that cannot be set up is closed. -/
theorem conserves_setUp (id : SocketId) (calls : List (StateM ν (Except Errno Unit))) :
    Conserves (setUp id (calls.map relay)) [id] (kept id) := by
  induction calls with
  | nil => exact .pure (.refl _)
  | cons call calls ih =>
    refine .bind (.relay call [id]) fun answer => ?_
    cases answer with
    | ok _ => exact ih
    | error e => exact .bind (conserves_closeId id) fun _ => .pure (.refl _)

theorem conserves_openTcp : Conserves (openTcp : StateM (Ledger ν) _) [] (ownedOr []) := by
  refine .bind (.opens NetHost.tcpSocket id) fun answer => ?_
  cases answer with
  | error e => exact .pure (.refl _)
  | ok id =>
    refine .bind (conserves_setUp id [NetHost.setNonBlocking id, NetHost.setReuseAddress id]) fun ready => ?_
    cases ready <;> exact .pure (.refl _)

theorem conserves_openUdp (addr : Endpoint) : Conserves (openUdp addr : StateM (Ledger ν) _) [] (ownedOr []) := by
  refine .bind (.opens NetHost.udpSocket id) fun answer => ?_
  cases answer with
  | error e => exact .pure (.refl _)
  | ok id =>
    refine .bind (conserves_setUp id [NetHost.bind id addr, NetHost.setNonBlocking id]) fun ready => ?_
    cases ready <;> exact .pure (.refl _)

theorem conserves_listen (s : HostSocket) (addr : Endpoint) :
    Conserves (s.listen addr : StateM (Ledger ν) _) s.owned (ownedOr s.owned) := by
  cases s with
  | tcp id =>
    refine .bind (.relay (NetHost.bind id addr) [id]) fun bound => ?_
    cases bound with
    | error e => exact .pure (.refl _)
    | ok _ =>
      refine .bind (.relay (NetHost.listen id listenBacklog) [id]) fun listening => ?_
      cases listening <;> exact .pure (.refl _)
  | none | connecting | listener | stream | datagram => exact .pure (.refl _)

theorem conserves_connect (s : HostSocket) (dest : Endpoint) :
    Conserves (s.connect dest : StateM (Ledger ν) _) s.owned (ownedOr s.owned) := by
  cases s with
  | tcp id =>
    refine .bind (.relay (NetHost.connect id dest) [id]) fun started => ?_
    cases started with
    | ok _ => exact .pure (.refl _)
    | error e =>
      refine .pure ?_
      split <;> exact .refl _
  | none | connecting | listener | stream | datagram => exact .pure (.refl _)

theorem conserves_finishConnect (s : HostSocket) :
    Conserves (s.finishConnect : StateM (Ledger ν) _) s.owned fun r => r.2.owned := by
  cases s with
  | connecting id dest =>
    refine .bind (.relay (NetHost.takeError id) [id]) fun failed => ?_
    rcases failed with e | _ | e
    · exact .pure (.refl _)
    · refine .bind (.relay (NetHost.peerName id) [id]) fun peer => ?_
      cases peer with
      | error e => exact .pure (.refl _)
      | ok _ =>
        refine .bind (.relay (NetHost.setNoDelay id) [id]) fun set => ?_
        cases set with
        | ok _ => exact .pure (.refl _)
        | error e => exact .bind (conserves_closeId id) fun _ => .pure (.refl _)
    · exact .pure (.refl _)
  | none | tcp | listener | stream | datagram => exact .pure (.refl _)

/-- An accepted stream takes the place of its listener, which is closed; one that cannot be set up is
closed itself. -/
theorem conserves_acceptNext (s : HostSocket) :
    Conserves (s.acceptNext : StateM (Ledger ν) _) s.owned fun r => r.2.owned := by
  cases s with
  | listener id =>
    refine .bind ((Conserves.opens (NetHost.accept id) Prod.fst).beside [id]) fun answer => ?_
    cases answer with
    | error e => exact .pure (.refl _)
    | ok taken =>
      refine .bind ((conserves_setUp taken.1 [NetHost.setNonBlocking taken.1, NetHost.setNoDelay taken.1]).beside [id])
        fun ready => ?_
      cases ready with
      | ok _ =>
        exact .bind (((conserves_closeId id).beside [taken.1]).perm (.swap ..) fun _ => .refl _) fun _ =>
          .pure (.refl _)
      | error e => exact .pure (.refl _)
  | none | tcp | connecting | stream | datagram => exact .pure (.refl _)

/-! ## Operations that open and close nothing -/

theorem conserves_receiveStream (s : HostSocket) (max : Nat) (held : List SocketId) :
    Conserves (s.receiveStream max : StateM (Ledger ν) _) held fun _ => held := by
  cases s with
  | stream id =>
    refine .bind (.relay (NetHost.peek id 1) held) fun waiting => ?_
    rcases waiting with e | _ | n
    · exact .pure (.refl _)
    · exact .pure (.refl _)
    · dsimp only
      split
      · exact .pure (.refl _)
      · refine .bind (.relay (NetHost.read id max) held) fun answer => ?_
        split <;> exact .pure (.refl _)
  | none | tcp | connecting | listener | datagram => exact .pure (.refl _)

theorem conserves_receiveDatagram (s : HostSocket) (free : Nat) (held : List SocketId) :
    Conserves (s.receiveDatagram free : StateM (Ledger ν) _) held fun _ => held := by
  cases s with
  | datagram id =>
    refine .bind (.relay (NetHost.peekFrom id (maxDatagram + 1)) held) fun found => ?_
    cases found with
    | error e => exact .pure (.refl _)
    | ok len =>
      have take : Conserves (NetHost.receiveFrom id (maxDatagram + 1) : StateM (Ledger ν) _) held fun _ => held :=
        .relay _ held
      dsimp only
      split
      · refine .bind take fun answer => ?_
        split <;> exact .pure (.refl _)
      · split
        · exact .pure (.refl _)
        · refine .bind take fun answer => ?_
          split <;> exact .pure (.refl _)
  | none | tcp | connecting | listener | stream => exact .pure (.refl _)

theorem conserves_writeAll (id : SocketId) (data : Bytes) (sent : Nat) (held : List SocketId) :
    Conserves (writeAll id data sent : StateM (Ledger ν) _) held fun _ => held := by
  intro l
  -- Every call is relayed, so the accounts before and after it are the same.
  have same {data : Bytes} {l after : Ledger ν} {answer : Except Errno Nat}
      (answered : NetHost.write id data l = (answer, after)) : after.opened = l.opened ∧ after.closed = l.closed := by
    cases answered
    exact ⟨rfl, rfl⟩
  suffices (writeAll id data sent l).2.opened = l.opened ∧ (writeAll id data sent l).2.closed = l.closed by
    refine ⟨[], [], ?_, ?_, ?_⟩ <;> simp [this]
  induction data, sent, l using writeAll_induct with
  | done sent l =>
    rw [writeAll_nil]
    exact ⟨rfl, rfl⟩
  | stuck sent l b rest after answered | waits sent l b rest after answered =>
    rw [writeAll_cons answered]
    exact same answered
  | taken sent l b rest n after answered ih | interrupted sent l b rest after answered ih =>
    rw [writeAll_cons answered]
    obtain ⟨opened, closed⟩ := same answered
    exact ⟨ih.1.trans opened, ih.2.trans closed⟩
  | failed sent l b rest e after answered wait again =>
    rw [writeAll_cons answered]
    simp only [if_neg wait, if_neg again]
    exact same answered

theorem conserves_sendStream (s : HostSocket) (data : Bytes) (held : List SocketId) :
    Conserves (s.sendStream data : StateM (Ledger ν) _) held fun _ => held := by
  cases s with
  | stream id => exact conserves_writeAll id data 0 held
  | none | tcp | connecting | listener | datagram => exact .pure (.refl _)

theorem conserves_sendDatagram (s : HostSocket) (data : Bytes) (dest : Endpoint) (held : List SocketId) :
    Conserves (s.sendDatagram data dest : StateM (Ledger ν) _) held fun _ => held := by
  cases s with
  | datagram id =>
    refine .bind (.relay (NetHost.sendTo id data dest) held) fun answer => ?_
    cases answer <;> exact .pure (.refl _)
  | none | tcp | connecting | listener | stream => exact .pure (.refl _)

theorem conserves_joinGroup (s : HostSocket) (group iface : Ipv4) (held : List SocketId) :
    Conserves (s.joinGroup group iface : StateM (Ledger ν) _) held fun _ => held := by
  cases s with
  | datagram id =>
    refine .bind (.relay (NetHost.joinGroup id group iface) held) fun answer => ?_
    cases answer <;> exact .pure (.refl _)
  | none | tcp | connecting | listener | stream => exact .pure (.refl _)

end Ledger

end EtherChip

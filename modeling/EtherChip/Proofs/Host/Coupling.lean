import EtherChip.Host.Socket
import EtherChip.Proofs.Host.Outcome

/-!
# Hosts that answer alike

Two hosts agree if, in corresponding states, every call on corresponding sockets gets the same answer
and leaves corresponding states (`HostsAgree`). Identities of sockets need not be the same ones: they
only have to correspond. A program cannot tell such hosts apart: `Couple` says so of a program on each
of them, and is closed under sequencing, so that it holds of every operation on host sockets.
-/
namespace EtherChip

variable {ν ν' α α' β β' ε : Type}

/-- Two programs on hosts in corresponding states end with related results, and leave the hosts in
corresponding states. -/
def Couple (R : ν → ν' → Prop) (x : StateM ν α) (y : StateM ν' β) (related : α → β → Prop) : Prop :=
  ∀ net net', R net net' → related (x net).1 (y net').1 ∧ R (x net).2 (y net').2

namespace Couple

variable {R : ν → ν' → Prop}

theorem pure {a : α} {b : β} {related : α → β → Prop} (h : related a b) :
    Couple R (Pure.pure a) (Pure.pure b) related := fun _ _ now => ⟨h, now⟩

theorem bind {x : StateM ν α} {y : StateM ν' β} {f : α → StateM ν α'} {g : β → StateM ν' β'}
    {mid : α → β → Prop} {related : α' → β' → Prop} (first : Couple R x y mid)
    (rest : ∀ a b, mid a b → Couple R (f a) (g b) related) : Couple R (x >>= f) (y >>= g) related := by
  intro net net' now
  obtain ⟨same, next⟩ := first net net' now
  exact rest _ _ same _ _ next

theorem ite {c : Prop} [Decidable c] {x x' : StateM ν α} {y y' : StateM ν' β} {related : α → β → Prop}
    (yes : c → Couple R x y related) (no : ¬c → Couple R x' y' related) :
    Couple R (if c then x else x') (if c then y else y') related := by
  split
  · exact yes ‹_›
  · exact no ‹_›

/-- A run on one host, and the same run on the other. -/
theorem run {x : StateM ν α} {y : StateM ν' α} (h : Couple R x y Eq) {net after : ν} {net' : ν'} (now : R net net')
    {a : α} (ran : x net = (a, after)) : ∃ after', y net' = (a, after') ∧ R after after' := by
  obtain ⟨same, next⟩ := h net net' now
  rw [ran] at same next
  exact ⟨_, Prod.ext same.symm rfl, next⟩

theorem mono {x : StateM ν α} {y : StateM ν' β} {strong related : α → β → Prop} (h : Couple R x y strong)
    (weaken : ∀ a b, strong a b → related a b) : Couple R x y related := fun net net' now =>
  ⟨weaken _ _ (h net net' now).1, (h net net' now).2⟩

end Couple

/-- Both calls fail in the same way, or both succeed with related values. -/
inductive Answered (related : α → β → Prop) : Except ε α → Except ε β → Prop where
  | ok {a : α} {b : β} (h : related a b) : Answered related (.ok a) (.ok b)
  | error (e : ε) : Answered related (.error e) (.error e)

/-- Two hosts answer alike in states that `R` relates, on sockets whose identities `ids` relates. -/
structure HostsAgree [NetHost ν] [NetHost ν'] (R : ν → ν' → Prop) (ids : SocketId → SocketId → Prop) : Prop where
  tcpSocket : Couple R NetHost.tcpSocket NetHost.tcpSocket (Answered ids)
  udpSocket : Couple R NetHost.udpSocket NetHost.udpSocket (Answered ids)
  bind {id id'} (same : ids id id') (addr : Endpoint) : Couple R (NetHost.bind id addr) (NetHost.bind id' addr) Eq
  listen {id id'} (same : ids id id') (backlog : Nat) :
    Couple R (NetHost.listen id backlog) (NetHost.listen id' backlog) Eq
  connect {id id'} (same : ids id id') (dest : Endpoint) :
    Couple R (NetHost.connect id dest) (NetHost.connect id' dest) Eq
  takeError {id id'} (same : ids id id') : Couple R (NetHost.takeError id) (NetHost.takeError id') Eq
  peerName {id id'} (same : ids id id') : Couple R (NetHost.peerName id) (NetHost.peerName id') Eq
  setNonBlocking {id id'} (same : ids id id') : Couple R (NetHost.setNonBlocking id) (NetHost.setNonBlocking id') Eq
  setReuseAddress {id id'} (same : ids id id') :
    Couple R (NetHost.setReuseAddress id) (NetHost.setReuseAddress id') Eq
  setNoDelay {id id'} (same : ids id id') : Couple R (NetHost.setNoDelay id) (NetHost.setNoDelay id') Eq
  accept {id id'} (same : ids id id') :
    Couple R (NetHost.accept id) (NetHost.accept id') (Answered fun a b => ids a.1 b.1 ∧ a.2 = b.2)
  peek {id id'} (same : ids id id') (max : Nat) : Couple R (NetHost.peek id max) (NetHost.peek id' max) Eq
  read {id id'} (same : ids id id') (max : Nat) : Couple R (NetHost.read id max) (NetHost.read id' max) Eq
  write {id id'} (same : ids id id') (data : Bytes) : Couple R (NetHost.write id data) (NetHost.write id' data) Eq
  peekFrom {id id'} (same : ids id id') (max : Nat) :
    Couple R (NetHost.peekFrom id max) (NetHost.peekFrom id' max) Eq
  receiveFrom {id id'} (same : ids id id') (max : Nat) :
    Couple R (NetHost.receiveFrom id max) (NetHost.receiveFrom id' max) Eq
  sendTo {id id'} (same : ids id id') (data : Bytes) (dest : Endpoint) :
    Couple R (NetHost.sendTo id data dest) (NetHost.sendTo id' data dest) Eq
  joinGroup {id id'} (same : ids id id') (group iface : Ipv4) :
    Couple R (NetHost.joinGroup id group iface) (NetHost.joinGroup id' group iface) Eq
  close {id id'} (same : ids id id') : Couple R (NetHost.close id) (NetHost.close id') Eq
  clock {net net'} (now : R net net') : NetHost.clock net = NetHost.clock net'

/-- Every host agrees with itself. -/
theorem HostsAgree.refl [NetHost ν] : HostsAgree (Eq : ν → ν → Prop) Eq := by
  have one {α : Type} (x : StateM ν α) : Couple Eq x x Eq := fun _ _ now => now ▸ ⟨rfl, rfl⟩
  have answered {α : Type} (x : StateM ν (Except Errno α)) : Couple Eq x x (Answered Eq) :=
    (one x).mono fun a _ same => same ▸ (match a with | .ok _ => .ok rfl | .error e => .error e)
  constructor
  case tcpSocket | udpSocket => exact answered _
  case accept =>
    rintro id _ rfl
    refine (one (NetHost.accept id)).mono fun a _ same => same ▸ ?_
    match a with
    | .ok taken => exact .ok ⟨rfl, rfl⟩
    | .error e => exact .error e
  case clock => exact fun now => now ▸ rfl
  case takeError | peerName | setNonBlocking | setReuseAddress | setNoDelay | close => exact fun same => same ▸ one _
  case sendTo | joinGroup => exact fun same _ _ => same ▸ one _
  all_goals exact fun same _ => same ▸ one _

namespace HostSocket

/-- Host sockets in the same stage, with corresponding identities. -/
inductive Alike (ids : SocketId → SocketId → Prop) : HostSocket → HostSocket → Prop where
  | none : Alike ids .none .none
  | tcp {id id' : SocketId} (same : ids id id') : Alike ids (.tcp id) (.tcp id')
  | connecting {id id' : SocketId} (same : ids id id') (dest : Endpoint) :
    Alike ids (.connecting id dest) (.connecting id' dest)
  | listener {id id' : SocketId} (same : ids id id') : Alike ids (.listener id) (.listener id')
  | stream {id id' : SocketId} (same : ids id id') : Alike ids (.stream id) (.stream id')
  | datagram {id id' : SocketId} (same : ids id id') : Alike ids (.datagram id) (.datagram id')

variable [NetHost ν] [NetHost ν'] {R : ν → ν' → Prop} {ids : SocketId → SocketId → Prop}
  (agree : HostsAgree R ids) {s s' : HostSocket}

theorem Alike.isConnecting (alike : s.Alike ids s') : s.isConnecting = s'.isConnecting := by
  cases alike <;> rfl

include agree

theorem couple_close (alike : s.Alike ids s') : Couple R s.close s'.close Eq := by
  cases alike with
  | none => exact .pure rfl
  | tcp same | connecting same | listener same | stream same | datagram same => exact agree.close same

theorem couple_setUp {id id' : SocketId} (same : ids id id') {call : StateM ν (Except Errno Unit)}
    {call' : StateM ν' (Except Errno Unit)} (first : Couple R call call' Eq)
    {calls : List (StateM ν (Except Errno Unit))} {calls' : List (StateM ν' (Except Errno Unit))}
    (rest : Couple R (setUp id calls) (setUp id' calls') Eq) :
    Couple R (setUp id (call :: calls)) (setUp id' (call' :: calls')) Eq := by
  refine .bind first ?_
  rintro (e | _) _ rfl
  · exact .bind (agree.close same) fun _ _ _ => .pure rfl
  · exact rest

theorem couple_openTcp : Couple R openTcp openTcp (Answered (Alike ids)) := by
  refine .bind agree.tcpSocket ?_
  rintro _ _ (same | e)
  · refine .bind (couple_setUp agree same (agree.setNonBlocking same)
      (couple_setUp agree same (agree.setReuseAddress same) (.pure rfl))) ?_
    rintro (e | _) _ rfl
    · exact .pure (.error _)
    · exact .pure (.ok (.tcp same))
  · exact .pure (.error _)

theorem couple_openUdp (addr : Endpoint) : Couple R (openUdp addr) (openUdp addr) (Answered (Alike ids)) := by
  refine .bind agree.udpSocket ?_
  rintro _ _ (same | e)
  · refine .bind (couple_setUp agree same (agree.bind same addr)
      (couple_setUp agree same (agree.setNonBlocking same) (.pure rfl))) ?_
    rintro (e | _) _ rfl
    · exact .pure (.error _)
    · exact .pure (.ok (.datagram same))
  · exact .pure (.error _)

theorem couple_listen (alike : s.Alike ids s') (addr : Endpoint) :
    Couple R (s.listen addr) (s'.listen addr) (Answered (Alike ids)) := by
  cases alike with
  | tcp same =>
    refine .bind (agree.bind same addr) ?_
    rintro (e | _) _ rfl
    · exact .pure (.error _)
    · refine .bind (agree.listen same listenBacklog) ?_
      rintro (e | _) _ rfl
      · exact .pure (.error _)
      · exact .pure (.ok (.listener same))
  | none | connecting | listener | stream | datagram => exact .pure (.error _)

theorem couple_connect (alike : s.Alike ids s') (dest : Endpoint) :
    Couple R (s.connect dest) (s'.connect dest) (Answered (Alike ids)) := by
  cases alike with
  | tcp same =>
    refine .bind (agree.connect same dest) ?_
    rintro (e | _) _ rfl
    · dsimp only
      split
      · exact .pure (.ok (.connecting same dest))
      · exact .pure (.error _)
    · exact .pure (.ok (.connecting same dest))
  | none | connecting | listener | stream | datagram => exact .pure (.error _)

theorem couple_finishConnect (alike : s.Alike ids s') :
    Couple R s.finishConnect s'.finishConnect fun a b => a.1 = b.1 ∧ a.2.Alike ids b.2 := by
  cases alike with
  | connecting same dest =>
    refine .bind (agree.takeError same) ?_
    rintro (e | _ | e) _ rfl
    · exact .pure ⟨rfl, .connecting same dest⟩
    · refine .bind (agree.peerName same) ?_
      rintro (e | _) _ rfl
      · exact .pure ⟨rfl, .connecting same dest⟩
      · refine .bind (agree.setNoDelay same) ?_
        rintro (e | _) _ rfl
        · exact .bind (agree.close same) fun _ _ _ => .pure ⟨rfl, .none⟩
        · exact .pure ⟨rfl, .stream same⟩
    · exact .pure ⟨rfl, .connecting same dest⟩
  | none => exact .pure ⟨rfl, .none⟩
  | tcp same => exact .pure ⟨rfl, .tcp same⟩
  | listener same => exact .pure ⟨rfl, .listener same⟩
  | stream same => exact .pure ⟨rfl, .stream same⟩
  | datagram same => exact .pure ⟨rfl, .datagram same⟩

theorem couple_acceptNext (alike : s.Alike ids s') :
    Couple R s.acceptNext s'.acceptNext fun a b => a.1 = b.1 ∧ a.2.Alike ids b.2 := by
  cases alike with
  | listener same =>
    refine .bind (agree.accept same) ?_
    rintro _ _ (@⟨⟨accepted, peer⟩, ⟨accepted', _⟩, taken, rfl⟩ | e)
    · refine .bind (couple_setUp agree taken (agree.setNonBlocking taken)
        (couple_setUp agree taken (agree.setNoDelay taken) (.pure rfl))) ?_
      rintro (e | _) _ rfl
      · exact .pure ⟨rfl, .listener same⟩
      · exact .bind (agree.close same) fun _ _ _ => .pure ⟨rfl, .stream taken⟩
    · exact .pure ⟨rfl, .listener same⟩
  | none => exact .pure ⟨rfl, .none⟩
  | tcp same => exact .pure ⟨rfl, .tcp same⟩
  | connecting same dest => exact .pure ⟨rfl, .connecting same dest⟩
  | stream same => exact .pure ⟨rfl, .stream same⟩
  | datagram same => exact .pure ⟨rfl, .datagram same⟩

theorem couple_receiveStream (alike : s.Alike ids s') (max : Nat) :
    Couple R (s.receiveStream max) (s'.receiveStream max) Eq := by
  cases alike with
  | stream same =>
    refine .bind (agree.peek same 1) ?_
    rintro (e | _ | len) _ rfl
    · exact .pure rfl
    · exact .pure rfl
    · dsimp only
      split
      · exact .pure rfl
      · refine .bind (agree.read same max) ?_
        rintro (e | _ | ⟨b, bs⟩) _ rfl
        · exact .pure rfl
        · exact .pure rfl
        · exact .pure rfl
  | none | tcp | connecting | listener | datagram => exact .pure rfl

theorem couple_receiveDatagram (alike : s.Alike ids s') (free : Nat) :
    Couple R (s.receiveDatagram free) (s'.receiveDatagram free) Eq := by
  cases alike with
  | datagram same =>
    refine .bind (agree.peekFrom same (maxDatagram + 1)) ?_
    rintro (e | len) _ rfl
    · exact .pure rfl
    · dsimp only
      split
      · refine .bind (agree.receiveFrom same (maxDatagram + 1)) ?_
        rintro (e | ⟨bytes, source⟩) _ rfl
        · exact .pure rfl
        · exact .pure rfl
      · split
        · exact .pure rfl
        · refine .bind (agree.receiveFrom same (maxDatagram + 1)) ?_
          rintro (e | ⟨bytes, source⟩) _ rfl
          · exact .pure rfl
          · exact .pure rfl
  | none | tcp | connecting | listener | stream => exact .pure rfl

theorem couple_writeAll {id id' : SocketId} (same : ids id id') (data : Bytes) (sent : Nat) :
    Couple R (writeAll id data sent) (writeAll id' data sent) Eq := by
  intro net net' now
  induction data, sent, net using writeAll_induct generalizing net' with
  | done sent net =>
    rw [writeAll_nil, writeAll_nil]
    exact ⟨rfl, now⟩
  | stuck sent net b rest after answered =>
    obtain ⟨after', answered', next⟩ := (agree.write same (b :: rest)).run now answered
    rw [writeAll_cons answered, writeAll_cons answered']
    exact ⟨rfl, next⟩
  | taken sent net b rest n after answered ih =>
    obtain ⟨after', answered', next⟩ := (agree.write same (b :: rest)).run now answered
    rw [writeAll_cons answered, writeAll_cons answered']
    exact ih after' next
  | waits sent net b rest after answered =>
    obtain ⟨after', answered', next⟩ := (agree.write same (b :: rest)).run now answered
    rw [writeAll_cons answered, writeAll_cons answered']
    exact ⟨rfl, next⟩
  | interrupted sent net b rest after answered ih =>
    obtain ⟨after', answered', next⟩ := (agree.write same (b :: rest)).run now answered
    rw [writeAll_interrupted answered, writeAll_interrupted answered']
    exact ih after' next
  | failed sent net b rest e after answered wait again =>
    obtain ⟨after', answered', next⟩ := (agree.write same (b :: rest)).run now answered
    rw [writeAll_cons answered, writeAll_cons answered']
    simp only [if_neg wait, if_neg again]
    exact ⟨trivial, next⟩

theorem couple_sendStream (alike : s.Alike ids s') (data : Bytes) :
    Couple R (s.sendStream data) (s'.sendStream data) Eq := by
  cases alike with
  | stream same => exact couple_writeAll agree same data 0
  | none | tcp | connecting | listener | datagram => exact .pure rfl

theorem couple_sendDatagram (alike : s.Alike ids s') (data : Bytes) (dest : Endpoint) :
    Couple R (s.sendDatagram data dest) (s'.sendDatagram data dest) Eq := by
  cases alike with
  | datagram same =>
    refine .bind (agree.sendTo same data dest) ?_
    rintro (e | _) _ rfl
    · exact .pure rfl
    · exact .pure rfl
  | none | tcp | connecting | listener | stream => exact .pure rfl

theorem couple_joinGroup (alike : s.Alike ids s') (group iface : Ipv4) :
    Couple R (s.joinGroup group iface) (s'.joinGroup group iface) Eq := by
  cases alike with
  | datagram same =>
    refine .bind (agree.joinGroup same group iface) ?_
    rintro (e | _) _ rfl
    · exact .pure rfl
    · exact .pure rfl
  | none | tcp | connecting | listener | stream => exact .pure rfl

end HostSocket

end EtherChip

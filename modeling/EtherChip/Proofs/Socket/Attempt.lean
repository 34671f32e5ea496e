import EtherChip.Host.Network
import EtherChip.Proofs.Socket.Coupling
import EtherChip.Proofs.Socket.Operation
import Mathlib.Data.List.Induction

/-!
# Attempts to connect

CONNECT starts a connection and says nothing of how it ends; that is found out by the polls after it.
In between the firmware may do what it likes: its own writes have their effect (`plain`), and nothing of
them reaches the attempt. `Tried` lists what one event can come to; from it follows, for every course of
events in which the socket is in INIT and is not closed, how far an attempt has come and where it was
made to go (`Phase`), and what becomes of it (`connect_lifecycle`).

An attempt that fails leaves nothing behind. The socket is again what OPEN makes of one, with a host
socket that is as new, so that CONNECT and LISTEN do what they do right after OPEN (`AsOpened`),
however many attempts have failed before.
-/
namespace EtherChip

variable {ν : Type} [NetHost ν]

/-! ## What the host says of a connection -/

/-- The host starts a connection, perhaps saying that it is under way. -/
def Starts (id : SocketId) (dest : Endpoint) (net : ν) : Prop :=
  let answer := (NetHost.connect id dest net).1
  answer = .ok () ∨ answer = .error .einprogress ∨ answer = .error .eagain

/-- A connection that has been started is up: it has not failed, it has another end, and its options can
be set. -/
def Up (id : SocketId) (net : ν) : Prop :=
  let failure := NetHost.takeError id net
  let peer := NetHost.peerName id failure.2
  failure.1 = .ok none ∧ (∃ addr, peer.1 = .ok addr) ∧ (NetHost.setNoDelay id peer.2).1 = .ok ()

/-- A connection that has been started is not up yet, and has not failed. -/
def Unfinished (id : SocketId) (net : ν) : Prop :=
  let failure := NetHost.takeError id net
  let peer := NetHost.peerName id failure.2
  failure.1 = .ok none ∧ (peer.1 = .error .enotconn ∨ peer.1 = .error .eagain)

/-- A connection that has been started has failed. -/
def Breaks (id : SocketId) (net : ν) : Prop := ¬ Up id net ∧ ¬ Unfinished id net

/-- What the host answers when it is asked for a socket in the place of one whose connection has failed: a
new one with its options set, or what has gone wrong with one of these calls. -/
def replacement (id : SocketId) (dest : Endpoint) (net : ν) : Except Errno SocketId :=
  match NetHost.tcpSocket ((HostSocket.connecting id dest).finishConnect net).2 with
  | (.ok fresh, made) =>
    (HostSocket.setUp fresh [NetHost.setNonBlocking fresh, NetHost.setReuseAddress fresh] made).1.map fun _ => fresh
  | (.error why, _) => .error why

namespace HostSocket

theorem connect_of_starts {id : SocketId} {dest : Endpoint} {net : ν} (starts : Starts id dest net) :
    ((tcp id).connect dest net).1 = .ok (connecting id dest) := by
  rw [connect, bind_run]
  rcases starts with started | started | started <;> rw [started] <;> rfl

theorem connect_of_refused {id : SocketId} {dest : Endpoint} {net : ν} (refused : ¬ Starts id dest net) :
    ∃ why, ((tcp id).connect dest net).1 = .error why := by
  rw [connect, bind_run]
  cases answer : (NetHost.connect id dest net).1 with
  | ok => exact absurd (.inl answer) refused
  | error why =>
    have final : startedAnyway why = false := by
      rw [startedAnyway, Bool.or_eq_false_iff]
      exact ⟨beq_eq_false_iff_ne.mpr fun same => refused (.inr (.inl (same ▸ answer))),
        beq_eq_false_iff_ne.mpr fun same => refused (.inr (.inr (same ▸ answer)))⟩
    dsimp only
    rw [if_neg (final ▸ Bool.false_ne_true)]
    exact ⟨_, rfl⟩

theorem finishConnect_of_up {id : SocketId} (dest : Endpoint) {net : ν} (up : Up id net) :
    ((connecting id dest).finishConnect net).1 = (.ok (some dest), stream id) := by
  obtain ⟨works, ⟨addr, named⟩, set⟩ := up
  rw [finishConnect, bind_run, works]
  dsimp only
  rw [bind_run, named]
  dsimp only
  rw [bind_run, set]
  rfl

theorem finishConnect_of_unfinished {id : SocketId} (dest : Endpoint) {net : ν} (unfinished : Unfinished id net) :
    ((connecting id dest).finishConnect net).1 = (.ok Option.none, connecting id dest) := by
  obtain ⟨works, waits⟩ := unfinished
  rw [finishConnect, bind_run, works]
  dsimp only
  rw [bind_run]
  rcases waits with waits | waits <;> rw [waits] <;> rfl

theorem finishConnect_of_breaks {id : SocketId} (dest : Endpoint) {net : ν} (breaks : Breaks id net) :
    ∃ why, ((connecting id dest).finishConnect net).1.1 = .error why := by
  obtain ⟨down, final⟩ := breaks
  rw [finishConnect, bind_run]
  cases works : (NetHost.takeError id net).1 with
  | error why => exact ⟨_, rfl⟩
  | ok failure =>
    cases failure with
    | some why => exact ⟨_, rfl⟩
    | none =>
      dsimp only
      rw [bind_run]
      cases named : (NetHost.peerName id (NetHost.takeError id net).2).1 with
      | error why =>
        have waits : notConnectedYet why = false := by
          rw [notConnectedYet, Bool.or_eq_false_iff]
          exact ⟨beq_eq_false_iff_ne.mpr fun same => final ⟨works, .inl (same ▸ named)⟩,
            beq_eq_false_iff_ne.mpr fun same => final ⟨works, .inr (same ▸ named)⟩⟩
        dsimp only
        rw [waits]
        exact ⟨_, rfl⟩
      | ok addr =>
        dsimp only
        rw [bind_run]
        cases set : (NetHost.setNoDelay id (NetHost.peerName id (NetHost.takeError id net).2).2).1 with
        | ok => exact absurd ⟨works, ⟨addr, named⟩, set⟩ down
        | error why => exact ⟨_, rfl⟩

theorem listen_tcp (id : SocketId) (addr : Endpoint) :
    Always ((tcp id).listen addr : StateM ν _) fun r => ∀ host, r = .ok host → host = .listener id := by
  refine .bind (.any _) fun r _ => ?_
  cases r with
  | error => exact .pure nofun
  | ok =>
    refine .bind (.any _) fun r _ => ?_
    cases r with
    | error => exact .pure nofun
    | ok => exact .pure fun _ h => (Except.ok.inj h).symm

end HostSocket

namespace Engine

/-! ## What the firmware does meanwhile -/

/-- An event gives a command. -/
def Event.Gives (cfg : NetConfig) (command : Command) (event : Event) : Prop :=
  event = .write cfg Cell.command command.code ∨ event = .command cfg command.code

/-- What an event does to a socket in INIT apart from commands and polls. -/
def plain (e : Engine) : Event → Engine
  | .write _ cell value => if cell = Cell.command then e else e.store cell value
  | .storeTx o value => e.storeTx o value
  | .storeRx o value => e.storeRx o value
  | .deliver data => e.deliver data
  | .command .. | .poll | .reset | .load _ => e

/-- What the events of a history do apart from commands and polls. -/
def plainTrace (e : Engine) (events : List (Event × ν)) : Engine :=
  events.foldl (fun e event => e.plain event.1) e

/-- Events in which a socket is in INIT each time, and is not closed, reset or loaded. -/
def Trying (e : Engine) : List (Event × ν) → Prop
  | [] => True
  | (event, net) :: events => e.status = .init ∧ event.command? ≠ some .close ∧ event.isReset = false ∧
      event.isLoad = false ∧ Trying (e.step event net).1 events

instance decidableTrying (e : Engine) (events : List (Event × ν)) : Decidable (e.Trying events) :=
  match events with
  | [] => .isTrue trivial
  | (event, net) :: events =>
    have : Decidable (Trying (e.step event net).1 events) := decidableTrying _ events
    inferInstanceAs (Decidable (_ ∧ _ ∧ _ ∧ _ ∧ Trying (e.step event net).1 events))

theorem trying_append {e : Engine} {events later : List (Event × ν)} :
    e.Trying (events ++ later) ↔ e.Trying events ∧ (e.trace events).Trying later := by
  induction events generalizing e with
  | nil => exact ⟨fun h => ⟨trivial, h⟩, fun h => h.2⟩
  | cons event events ih =>
    rw [List.cons_append, Trying, Trying, ih, trace_cons]
    simp only [and_assoc]

omit [NetHost ν] in
theorem plainTrace_append (e : Engine) (events : List (Event × ν)) (last : Event × ν) :
    e.plainTrace (events ++ [last]) = (e.plainTrace events).plain last.1 := List.foldl_append

theorem plain_withHost (e : Engine) (host : HostSocket) (event : Event) :
    (e.withHost host).plain event = (e.plain event).withHost host := by
  cases event with
  | write cfg cell value =>
    dsimp only [plain]
    split
    · rfl
    · exact e.store_withHost host cell value
  | deliver data => exact e.deliver_withHost host data
  | command | storeTx | storeRx | poll | reset | load => rfl

theorem status_plain (e : Engine) (event : Event) : (e.plain event).status = e.status := by
  cases event with
  | write cfg cell value =>
    dsimp only [plain]
    split
    · rfl
    · exact status_store e cell value
  | deliver data => exact status_deliver e data
  | command | storeTx | storeRx | poll | reset | load => rfl

theorem Event.Gives.plain {event : Event} {cfg : NetConfig} {command : Command} (h : event.Gives cfg command)
    (e : Engine) : e.plain event = e := by
  rcases h with rfl | rfl <;> rfl

theorem Event.Gives.step {event : Event} {cfg : NetConfig} {command : Command} (h : event.Gives cfg command)
    (e : Engine) : (e.step event : StateM ν Engine) = e.command cfg command.code := by
  rcases h with rfl | rfl <;> rfl

/-! ## One event -/

theorem connect_tcp {e : Engine} {id : SocketId} (host : e.host = .tcp id) (cfg : NetConfig) (net : ν) :
    (Starts id (e.destEndpoint cfg) net →
      (e.connect cfg net).1 = e.withHost (.connecting id (e.destEndpoint cfg))) ∧
    (¬ Starts id (e.destEndpoint cfg) net → (e.connect cfg net).1 = e) := by
  have free : e.isConnecting = false := by rw [isConnecting, host]; rfl
  rw [connect_run e cfg net free, host]
  refine ⟨fun starts => ?_, fun refused => ?_⟩
  · rw [HostSocket.connect_of_starts starts]
    rfl
  · obtain ⟨why, failed⟩ := HostSocket.connect_of_refused refused
    rw [failed]

theorem listen_tcp {e : Engine} {id : SocketId} (host : e.host = .tcp id) (cfg : NetConfig) (net : ν) :
    (e.listen cfg net).1 = enter (e.withHost (.listener id)) .listen ∨ (e.listen cfg net).1 = e := by
  have listening := HostSocket.listen_tcp id (e.localEndpoint cfg) net
  rw [listen_run, host]
  cases answer : ((HostSocket.tcp id).listen (e.localEndpoint cfg) net).1 with
  | error => exact .inr rfl
  | ok host => exact .inl (by rw [listening host answer]; rfl)

theorem poll_tcp {e : Engine} {id : SocketId} (init : e.status = .init) (host : e.host = .tcp id) :
    (e.poll : StateM ν Engine) = pure e := by
  rw [poll, init]
  show e.pollConnect = _
  rw [pollConnect, host]
  show (pure { e with host := .tcp id } : StateM ν Engine) = pure e
  rw [← host]

/-- **A poll of a connection under way**, by what the host says of it. -/
theorem poll_connecting {e : Engine} {id : SocketId} {dest : Endpoint} (init : e.status = .init)
    (host : e.host = .connecting id dest) (net : ν) :
    (Up id net → (e.poll net).1 = enter (e.withHost (.stream id)) .established) ∧
    (Unfinished id net → (e.poll net).1 = e) ∧
    (Breaks id net → ∀ fresh, replacement id dest net = .ok fresh → (e.poll net).1 = e.withHost (.tcp fresh)) ∧
    (Breaks id net → ∀ why, replacement id dest net = .error why → (e.poll net).1 = e.closed) := by
  have run : (e.poll net).1 = (e.pollConnect net).1 := by rw [poll, init]
  rw [run, pollConnect_run, host]
  have opened : (HostSocket.openTcp ((HostSocket.connecting id dest).finishConnect net).2).1 =
      ((replacement id dest net).map HostSocket.tcp).mapError HostError.os := by
    rw [HostSocket.openTcp, bind_run, replacement]
    rcases NetHost.tcpSocket ((HostSocket.connecting id dest).finishConnect net).2 with ⟨why | fresh, made⟩
    · rfl
    dsimp only
    rw [bind_run]
    cases (HostSocket.setUp fresh [NetHost.setNonBlocking fresh, NetHost.setReuseAddress fresh] made).1 with
    | error why => rfl
    | ok => rfl
  rw [opened]
  refine ⟨fun up => ?_, fun unfinished => ?_, fun breaks fresh given => ?_, fun breaks why none => ?_⟩
  · rw [HostSocket.finishConnect_of_up dest up]
    rfl
  · rw [HostSocket.finishConnect_of_unfinished dest unfinished, ← host]
  · obtain ⟨why, failed⟩ := HostSocket.finishConnect_of_breaks dest breaks
    generalize ((HostSocket.connecting id dest).finishConnect net).1 = found at failed
    obtain ⟨answer, left⟩ := found
    obtain rfl : answer = .error why := failed
    rw [given]
    rfl
  · obtain ⟨why, failed⟩ := HostSocket.finishConnect_of_breaks dest breaks
    generalize ((HostSocket.connecting id dest).finishConnect net).1 = found at failed
    obtain ⟨answer, left⟩ := found
    obtain rfl : answer = .error why := failed
    rw [none]
    rfl

/-- What an event can come to while a socket is in INIT. -/
inductive Tried (e : Engine) (net : ν) (event : Event) : Engine → Prop
  /-- Nothing but what the firmware does by itself. -/
  | plain : Tried e net event (e.plain event)
  | started (cfg : NetConfig) (id : SocketId) : event.Gives cfg .connect → e.host = .tcp id →
      Starts id (e.destEndpoint cfg) net → Tried e net event (e.withHost (.connecting id (e.destEndpoint cfg)))
  | listening (cfg : NetConfig) (id : SocketId) : event.Gives cfg .listen → e.host = .tcp id →
      Tried e net event (enter (e.withHost (.listener id)) .listen)
  | connected (id : SocketId) (dest : Endpoint) : event = .poll → e.host = .connecting id dest → Up id net →
      Tried e net event (enter (e.withHost (.stream id)) .established)
  /-- The connection has failed, and a new socket is in the place of the old one. -/
  | renewed (id : SocketId) (dest : Endpoint) (fresh : SocketId) : event = .poll → e.host = .connecting id dest →
      Breaks id net → replacement id dest net = .ok fresh → Tried e net event (e.withHost (.tcp fresh))
  /-- The connection has failed, and there is no new socket. -/
  | lost (id : SocketId) (dest : Endpoint) (why : Errno) : event = .poll → e.host = .connecting id dest →
      Breaks id net → replacement id dest net = .error why → Tried e net event e.closed

/-- A host socket that a socket in INIT can have. -/
def Unsettled (host : HostSocket) : Prop := (∃ id, host = .tcp id) ∨ ∃ id dest, host = .connecting id dest

theorem tried_of_code {e : Engine} {event : Event} {cfg : NetConfig} {code : UInt8} (init : e.status = .init)
    (unsettled : Unsettled e.host) (gives : event = .write cfg Cell.command code ∨ event = .command cfg code)
    (noClose : event.command? ≠ some .close) (net : ν) : Tried e net event (e.step event net).1 := by
  have plain : e.plain event = e := by rcases gives with rfl | rfl <;> rfl
  have run : (e.step event net).1 = (e.command cfg code net).1 := by rcases gives with rfl | rfl <;> rfl
  have command? : event.command? = Command.ofCode? code := by rcases gives with rfl | rfl <;> rfl
  have ignored (same : (e.command cfg code net).1 = e) : Tried e net event (e.step event net).1 := by
    have nothing : (e.step event net).1 = e.plain event := run.trans (same.trans plain.symm)
    exact nothing ▸ .plain
  have given {command : Command} (ofCode : Command.ofCode? code = some command) : event.Gives cfg command := by
    obtain rfl := Command.ofCode?_eq_some.mp ofCode
    exact gives
  rw [command?] at noClose
  cases ofCode : Command.ofCode? code with
  | none => exact ignored (by rw [command, init, ofCode]; rfl)
  | some command =>
    cases command with
    | connect =>
      have asked : (e.command cfg code net).1 = (e.connect cfg net).1 := by rw [command, init, ofCode]
      rcases unsettled with ⟨id, host⟩ | ⟨id, dest, host⟩
      · obtain ⟨starts, refused⟩ := connect_tcp host cfg net
        by_cases answer : Starts id (e.destEndpoint cfg) net
        · rw [run, asked, starts answer]
          exact .started cfg id (given ofCode) host answer
        · exact ignored (asked.trans (refused answer))
      · have under : e.isConnecting = true := by rw [isConnecting, host]; rfl
        exact ignored (by rw [asked, connect_connecting cfg under]; rfl)
    | listen =>
      have asked : (e.command cfg code net).1 = (e.listen cfg net).1 := by rw [command, init, ofCode]
      rcases unsettled with ⟨id, host⟩ | ⟨id, dest, host⟩
      · rcases listen_tcp host cfg net with listening | refused
        · rw [run, asked, listening]
          exact .listening cfg id (given ofCode) host
        · exact ignored (asked.trans refused)
      · have under : e.isConnecting = true := by rw [isConnecting, host]; rfl
        exact ignored (by rw [asked, listen_connecting cfg under]; rfl)
    | close => exact absurd ofCode noClose
    | openSocket | disconnect | send | receive => exact ignored (by rw [command, init, ofCode]; rfl)

/-- **Step.** What an event comes to while a socket is in INIT. -/
theorem step_tried {e : Engine} (init : e.status = .init) (unsettled : Unsettled e.host) {event : Event}
    (noClose : event.command? ≠ some .close) (noReset : event.isReset = false) (noLoad : event.isLoad = false)
    (net : ν) : Tried e net event (e.step event net).1 := by
  cases event with
  | write cfg cell value =>
    by_cases command : cell = Cell.command
    · subst command
      exact tried_of_code init unsettled (.inl rfl) noClose net
    · have same : (e.step (.write cfg cell value) net).1 = e.plain (.write cfg cell value) := by
        rw [step, writeRegister, if_neg command, plain, if_neg command]
        rfl
      exact same ▸ .plain
  | command cfg code => exact tried_of_code init unsettled (.inr rfl) noClose net
  | storeTx | storeRx | deliver => exact .plain
  | poll =>
    rcases unsettled with ⟨id, host⟩ | ⟨id, dest, host⟩
    · have idle : (e.step .poll net).1 = e.plain .poll := by
        rw [step, poll_tcp init host]
        rfl
      exact idle ▸ .plain
    · obtain ⟨up, unfinished, renewed, lost⟩ := poll_connecting init host net
      by_cases isUp : Up id net
      · rw [step, up isUp]
        exact .connected id dest rfl host isUp
      by_cases waits : Unfinished id net
      · rw [step, unfinished waits]
        exact .plain
      have breaks : Breaks id net := ⟨isUp, waits⟩
      cases answer : replacement id dest net with
      | ok fresh =>
        rw [step, renewed breaks fresh answer]
        exact .renewed id dest fresh rfl host breaks answer
      | error why =>
        rw [step, lost breaks why answer]
        exact .lost id dest why rfl host breaks answer
  | reset => exact nomatch noReset
  | load => exact nomatch noLoad

/-! ## A course of events -/

/-- A connection has been started by CONNECT, to where the registers said at that moment, and has been
under way ever since. -/
def Dialled (e : Engine) (events : List (Event × ν)) (id : SocketId) (dest : Endpoint) : Prop :=
  ∃ before event net later cfg, events = before ++ (event, net) :: later ∧ event.Gives cfg .connect ∧
    (e.trace before).host = .tcp id ∧ dest = (e.trace before).destEndpoint cfg ∧ Starts id dest net ∧
    ∀ early late, later = early ++ late → (e.trace (before ++ (event, net) :: early)).host = .connecting id dest

theorem Dialled.append {e : Engine} {events : List (Event × ν)} {id : SocketId} {dest : Endpoint}
    (h : e.Dialled events id dest) (last : Event × ν)
    (still : (e.trace (events ++ [last])).host = .connecting id dest) : e.Dialled (events ++ [last]) id dest := by
  obtain ⟨before, event, net, later, cfg, rfl, gives, host, there, starts, under⟩ := h
  refine ⟨before, event, net, later ++ [last], cfg, by simp, gives, host, there, starts, fun early late split => ?_⟩
  rcases List.eq_nil_or_concat late with rfl | ⟨late, next, rfl⟩
  · rw [List.append_nil] at split
    rw [← split]
    simpa using still
  · rw [List.concat_eq_append, ← List.append_assoc] at split
    exact under early late (List.append_inj' split rfl).1

/-- How far an attempt has come while the socket is in INIT. In all else it is as the firmware has left it. -/
inductive Phase (e : Engine) (events : List (Event × ν)) : Engine → Prop
  | free (id : SocketId) : Phase e events ((e.plainTrace events).withHost (.tcp id))
  | dialled (id : SocketId) (dest : Endpoint) : e.Dialled events id dest →
      Phase e events ((e.plainTrace events).withHost (.connecting id dest))

theorem Phase.unsettled {e now : Engine} {events : List (Event × ν)} (h : Phase e events now) :
    Unsettled now.host := by
  cases h with
  | free id => exact .inl ⟨id, rfl⟩
  | dialled id dest => exact .inr ⟨id, dest, rfl⟩

theorem Phase.withHost {e now : Engine} {events : List (Event × ν)} (h : Phase e events now) (host : HostSocket) :
    now.withHost host = (e.plainTrace events).withHost host := by
  cases h <;> rfl

/-- A socket in INIT whose event has no part in an attempt. -/
theorem Phase.plain {e now : Engine} {events : List (Event × ν)} (h : Phase e events now) (last : Event × ν)
    (now_eq : e.trace (events ++ [last]) = now.plain last.1) :
    Phase e (events ++ [last]) (now.plain last.1) := by
  cases h with
  | free id =>
    rw [plain_withHost, ← plainTrace_append]
    exact .free id
  | dialled id dest dialled =>
    rw [plain_withHost, ← plainTrace_append] at now_eq ⊢
    exact .dialled id dest (dialled.append last (by rw [now_eq]; rfl))

/-- **Step.** As long as the socket is in INIT, an event leaves it free or dialled. -/
theorem Phase.step {e now after : Engine} {events : List (Event × ν)} {last : Event × ν} (h : Phase e events now)
    (at_now : e.trace events = now) (at_after : e.trace (events ++ [last]) = after)
    (tried : Tried now last.2 last.1 after) (still : after.status = .init) : Phase e (events ++ [last]) after := by
  cases tried with
  | plain => exact h.plain last at_after
  | started cfg id gives host starts =>
    have left : e.plainTrace (events ++ [last]) = e.plainTrace events := by rw [plainTrace_append, gives.plain]
    rw [h.withHost, ← left]
    refine .dialled id _ ⟨events, last.1, last.2, [], cfg, rfl, gives, at_now ▸ host, at_now ▸ rfl, starts, ?_⟩
    intro early late split
    obtain ⟨rfl, rfl⟩ := List.append_eq_nil_iff.mp split.symm
    exact congrArg Engine.host at_after
  | renewed id dest fresh poll =>
    have left : e.plainTrace (events ++ [last]) = e.plainTrace events := by rw [plainTrace_append, poll]; rfl
    rw [h.withHost, ← left]
    exact .free fresh
  | listening | connected | lost => exact nomatch still

/-- **Run.** While a socket is in INIT it is as the firmware has left it, but for a host socket that is free
or has been dialled. -/
theorem phase_trace {e : Engine} {id : SocketId} (free : e.host = .tcp id) {events : List (Event × ν)}
    (trying : e.Trying events) (still : (e.trace events).status = .init) :
    Phase e events (e.trace events) := by
  induction events using List.reverseRecOn with
  | nil =>
    have same : (e.plainTrace ([] : List (Event × ν))).withHost (.tcp id) = e := by
      rw [← free]
      rfl
    exact same ▸ .free id
  | append_singleton events last ih =>
    obtain ⟨early, now_init, noClose, noReset, noLoad, -⟩ := trying_append.mp trying
    have phase := ih early now_init
    have tried := step_tried now_init phase.unsettled noClose noReset noLoad last.2
    have step : e.trace (events ++ [last]) = ((e.trace events).step last.1 last.2).1 := trace_append ..
    rw [step] at still ⊢
    exact phase.step rfl step tried still

/-- The last event of an attempt: how far the attempt has come before, and what the event comes to. -/
theorem tried_last {e : Engine} {id : SocketId} (free : e.host = .tcp id) {events : List (Event × ν)}
    {last : Event × ν} (trying : e.Trying (events ++ [last])) :
    (e.trace events).status = .init ∧ Phase e events (e.trace events) ∧
      Tried (e.trace events) last.2 last.1 (e.trace (events ++ [last])) := by
  obtain ⟨early, now_init, noClose, noReset, noLoad, -⟩ := trying_append.mp trying
  have phase := phase_trace free early now_init
  have tried := step_tried now_init phase.unsettled noClose noReset noLoad last.2
  rw [trace_append]
  exact ⟨now_init, phase, tried⟩

/-! ## What is left of an attempt -/

/-- The registers but for the status cell, and both rings, are the same. -/
structure Besides (e e' : Engine) : Prop where
  cells : ∀ cell, cell ≠ Cell.status → e'.regs.get cell = e.regs.get cell
  tx : e'.tx = e.tx
  rx : e'.rx = e.rx
  rxWrite : e'.rxWrite = e.rxWrite

theorem besides_withHost (e : Engine) (host : HostSocket) : Besides e (e.withHost host) :=
  ⟨fun _ _ => rfl, rfl, rfl, rfl⟩

theorem besides_enter (e : Engine) (host : HostSocket) (status : Status) : Besides e (enter (e.withHost host) status) :=
  ⟨fun _ other => RegisterBank.get_set_of_ne _ _ other, rfl, rfl, rfl⟩

theorem besides_closed (e : Engine) (host : HostSocket) : Besides e (e.withHost host).closed :=
  ⟨fun _ other => RegisterBank.get_set_of_ne _ _ other, rfl, rfl, rfl⟩

/-- An attempt has changed the status, the status cell and the host socket at most. -/
theorem besides_trace {e : Engine} {id : SocketId} (free : e.host = .tcp id) {events : List (Event × ν)}
    (trying : e.Trying events) : Besides (e.plainTrace events) (e.trace events) := by
  rcases List.eq_nil_or_concat events with rfl | ⟨events, last, rfl⟩
  · exact ⟨fun _ _ => rfl, rfl, rfl, rfl⟩
  rw [List.concat_eq_append] at *
  obtain ⟨-, phase, tried⟩ := tried_last free trying
  have same : e.trace events = (e.plainTrace events).withHost (e.trace events).host := phase.withHost _
  rw [plainTrace_append]
  generalize e.trace (events ++ [last]) = after at tried
  rw [same] at tried
  cases tried with
  | plain =>
    rw [plain_withHost]
    exact besides_withHost _ _
  | started cfg id gives =>
    rw [gives.plain]
    exact besides_withHost _ _
  | listening cfg id gives =>
    rw [gives.plain]
    exact besides_enter _ _ _
  | connected id dest poll =>
    rw [poll]
    exact besides_enter _ _ _
  | renewed id dest fresh poll =>
    rw [poll]
    exact besides_withHost _ _
  | lost id dest why poll =>
    rw [poll]
    exact besides_closed _ _

/-- Two sockets have got host sockets in the same stage, or both are as they were. -/
inductive Likewise (ids : SocketId → SocketId → Prop) (e o : Engine) : Engine → Engine → Prop
  | connecting {host host' : HostSocket} : host.Alike ids host' →
      Likewise ids e o (e.withHost host) (o.withHost host')
  | listening {host host' : HostSocket} : host.Alike ids host' →
      Likewise ids e o (enter (e.withHost host) .listen) (enter (o.withHost host') .listen)
  | refused : Likewise ids e o e o

/-- A socket does at CONNECT and at LISTEN what a socket does that OPEN has just opened, if its host treats
the host socket `fresh` as it treats a new one. -/
def AsOpened (e : Engine) (fresh : SocketId) : Prop :=
  ∀ (ν ν' : Type) [NetHost ν] [NetHost ν'] (R : ν → ν' → Prop) (ids : SocketId → SocketId → Prop),
    HostsAgree R ids → ∀ (c o : Engine) (id : SocketId), Reopened c o → o.host = .tcp id → ids fresh id →
    ∀ cfg : NetConfig, o.destEndpoint cfg = e.destEndpoint cfg → o.localEndpoint cfg = e.localEndpoint cfg →
    ∀ command, command = Command.connect ∨ command = Command.listen →
      Couple R (e.command cfg command.code) (o.command cfg command.code) (Likewise ids e o)

theorem couple_connect_tcp {ν' : Type} [NetHost ν'] {R : ν → ν' → Prop} {ids : SocketId → SocketId → Prop}
    (agree : HostsAgree R ids) {e o : Engine} {fresh id : SocketId} (host : e.host = .tcp fresh)
    (host' : o.host = .tcp id) (same : ids fresh id) {cfg : NetConfig}
    (dest : o.destEndpoint cfg = e.destEndpoint cfg) :
    Couple R (e.connect cfg) (o.connect cfg) (Likewise ids e o) := by
  have free : ¬ e.isConnecting := by rw [isConnecting, host]; exact nofun
  have free' : ¬ o.isConnecting := by rw [isConnecting, host']; exact nofun
  rw [connect, connect, if_neg free, if_neg free', host, host', dest]
  refine .bind (HostSocket.couple_connect agree (.tcp same) _) ?_
  rintro _ _ (started | _)
  · exact .pure (.connecting started)
  · exact .pure .refused

theorem couple_listen_tcp {ν' : Type} [NetHost ν'] {R : ν → ν' → Prop} {ids : SocketId → SocketId → Prop}
    (agree : HostsAgree R ids) {e o : Engine} {fresh id : SocketId} (host : e.host = .tcp fresh)
    (host' : o.host = .tcp id) (same : ids fresh id) {cfg : NetConfig}
    (here : o.localEndpoint cfg = e.localEndpoint cfg) :
    Couple R (e.listen cfg) (o.listen cfg) (Likewise ids e o) := by
  rw [listen, listen, host, host', here]
  refine .bind (HostSocket.couple_listen agree (.tcp same) _) ?_
  rintro _ _ (listening | _)
  · exact .pure (.listening listening)
  · exact .pure .refused

theorem asOpened_of_tcp {e : Engine} {fresh : SocketId} (init : e.status = .init) (host : e.host = .tcp fresh) :
    e.AsOpened fresh := by
  intro ν ν' _ _ R ids agree c o id opened host' same cfg dest here command kind
  have init' : o.status = .init := by
    cases opened with
    | stream => rfl
    | failed | datagram => exact nomatch host'
  rcases kind with rfl | rfl
  · rw [Engine.command, Engine.command, init, init', Command.ofCode?_code]
    exact couple_connect_tcp agree host host' same dest
  · rw [Engine.command, Engine.command, init, init', Command.ofCode?_code]
    exact couple_listen_tcp agree host host' same here

/-- What becomes of attempts to connect in a course of events. -/
structure Lifecycle (e : Engine) (events : List (Event × ν)) : Prop where
  /-- No attempt has changed a register cell but the status cell, nor a ring: they are as the firmware has
  left them. -/
  besides : Besides (e.plainTrace events) (e.trace events)
  /-- CONNECT starts a connection to where the registers say at that moment; if the host refuses it at once,
  nothing has happened, and while a connection is under way CONNECT is ignored. -/
  connect : ∀ before event net cfg, events = before ++ [(event, net)] → event.Gives cfg .connect →
    let now := e.trace before
    (∀ id, now.host = .tcp id →
      (Starts id (now.destEndpoint cfg) net →
        e.trace events = now.withHost (.connecting id (now.destEndpoint cfg))) ∧
      (¬ Starts id (now.destEndpoint cfg) net → e.trace events = now)) ∧
    (∀ id dest, now.host = .connecting id dest → now.step event net = (now, net))
  /-- While a connection is under way the status is INIT, and it goes where it was made to go. -/
  pending : ∀ id dest, (e.trace events).host = .connecting id dest →
    (e.trace events).status = .init ∧ e.Dialled events id dest
  /-- The status becomes ESTABLISHED only with a stream on the connection that was started, in a poll that
  finds it up. -/
  established : (e.trace events).status = .established →
    ∃ before net id dest, events = before ++ [(.poll, net)] ∧ e.Dialled before id dest ∧ Up id net ∧
      (e.trace events).host = .stream id
  /-- A poll of a connection under way. -/
  poll : ∀ before net id dest, events = before ++ [(.poll, net)] →
    (e.trace before).host = .connecting id dest →
    let now := e.trace before
    let after := e.trace events
    (Up id net → after = enter (now.withHost (.stream id)) .established) ∧
    (Unfinished id net → after = now) ∧
    (Breaks id net →
      (∀ fresh, replacement id dest net = .ok fresh →
        after = (e.plainTrace events).withHost (.tcp fresh) ∧ after.status = .init ∧ after.AsOpened fresh) ∧
      (∀ why, replacement id dest net = .error why → after.status = .closed))

/-- **Outbound connections.** For every socket in INIT with an unconnected host socket, with any host and
any configuration at each command, and for every course of polls, register and ring writes and commands
but CLOSE, for as long as the status is INIT: attempts to connect take their course as `Lifecycle` says,
however many of them have failed. -/
theorem connect_lifecycle {e : Engine} {id : SocketId} (init : e.status = .init) (free : e.host = .tcp id)
    (events : List (Event × ν)) (trying : e.Trying events) : e.Lifecycle events where
  besides := besides_trace free trying
  connect := by
    rintro before event net cfg rfl gives
    obtain ⟨now_init, -, -⟩ := tried_last free trying
    have run : (e.trace before).step event net = (e.trace before).connect cfg net := by
      rw [gives.step, command, now_init, Command.ofCode?_code]
    have after : e.trace (before ++ [(event, net)]) = ((e.trace before).connect cfg net).1 := by
      rw [trace_append, ← run]
      rfl
    rw [after]
    refine ⟨fun id host => connect_tcp host cfg net, fun id dest host => ?_⟩
    have under : (e.trace before).isConnecting = true := by rw [isConnecting, host]; rfl
    rw [run, connect_connecting cfg under]
    rfl
  pending := by
    intro id' dest host
    have still : (e.trace events).status = .init := by
      rcases List.eq_nil_or_concat events with rfl | ⟨events, last, rfl⟩
      · exact init
      rw [List.concat_eq_append] at *
      obtain ⟨now_init, -, tried⟩ := tried_last free trying
      generalize e.trace (events ++ [last]) = after at tried host ⊢
      cases tried with
      | plain => exact (status_plain _ _).trans now_init
      | started | renewed => exact now_init
      | listening | connected | lost => cases host
    have phase := phase_trace free trying still
    refine ⟨still, ?_⟩
    generalize e.trace events = now at phase host
    cases phase with
    | free => cases host
    | dialled id dest dialled =>
      cases host
      exact dialled
  established := by
    intro up
    rcases List.eq_nil_or_concat events with rfl | ⟨events, ⟨event, net⟩, rfl⟩
    · cases init.symm.trans up
    rw [List.concat_eq_append] at *
    obtain ⟨now_init, phase, tried⟩ := tried_last free trying
    generalize e.trace (events ++ [(event, net)]) = after at tried up ⊢
    cases tried with
    | plain => cases now_init.symm.trans ((status_plain _ _).symm.trans up)
    | started | renewed => cases now_init.symm.trans up
    | listening | lost => cases up
    | connected id dest poll host isUp =>
      obtain rfl : event = .poll := poll
      generalize e.trace events = now at phase host ⊢
      cases phase with
      | free => cases host
      | dialled id dest dialled =>
        cases host
        exact ⟨events, net, id, dest, rfl, dialled, isUp, rfl⟩
  poll := by
    rintro before net id' dest rfl host
    obtain ⟨now_init, phase, -⟩ := tried_last free trying
    have after : e.trace (before ++ [(.poll, net)]) = ((e.trace before).poll net).1 := trace_append ..
    have left : e.plainTrace (before ++ [(.poll, net)]) = e.plainTrace before := by
      rw [plainTrace_append]
      rfl
    obtain ⟨up, unfinished, renewed, lost⟩ := poll_connecting now_init host net
    rw [after]
    refine ⟨up, unfinished, fun breaks => ⟨fun fresh given => ?_, fun why none => ?_⟩⟩
    · have now : ((e.trace before).poll net).1 = (e.trace before).withHost (.tcp fresh) := renewed breaks fresh given
      rw [now, left]
      exact ⟨phase.withHost _, now_init, asOpened_of_tcp now_init rfl⟩
    · rw [lost breaks why none]
      rfl

/-- A stream socket right after OPEN, with 80 in the destination port. -/
def openedSocket : List (Event × Network) :=
  [(.write {} Cell.mode Protocol.tcp.code, {}), (.command {} Command.openSocket.code, {}),
    (.write {} (Cell.destPort + 1) 80, {})]

/-- A network that has refused the connection of its first socket. -/
def refusing : Network := { sockets := [(⟨0⟩, .tcp none (.failed (some .econnrefused)))], nextId := 1 }

/-- CONNECT, and a poll that finds the connection refused. -/
def refusedAttempt : List (Event × Network) :=
  [(.command {} Command.connect.code, { sockets := [(⟨0⟩, .tcp none .fresh)] }), (.poll, refusing)]

/-- CONNECT again; while it is pending LISTEN is given and the destination port is written. -/
def acceptedAttempt : List (Event × Network) :=
  [(.command {} Command.connect.code, { sockets := [(⟨1⟩, .tcp none .fresh)] }),
    (.poll, { sockets := [(⟨1⟩, .tcp none (.connecting ⟨Ipv4.unspecified, 80⟩))] }),
    (.command {} Command.listen.code, {}), (.write {} (Cell.destPort + 1) 81, {}),
    (.poll, { sockets := [(⟨1⟩, .tcp none (.connected 0 .opener ⟨Ipv4.unspecified, 80⟩))] })]

theorem connect_lifecycle_second :
    let e := powerOn.trace openedSocket
    e.Trying (refusedAttempt ++ acceptedAttempt) ∧
    e.trace refusedAttempt = (e.plainTrace refusedAttempt).withHost (.tcp ⟨1⟩) ∧
    (e.trace refusedAttempt).AsOpened ⟨1⟩ ∧
    (e.trace (refusedAttempt ++ acceptedAttempt)).status = .established ∧
    (e.trace (refusedAttempt ++ acceptedAttempt)).regs.word Cell.destPort = 81 ∧
    e.Dialled (refusedAttempt ++ acceptedAttempt.take 4) ⟨1⟩ ⟨Ipv4.unspecified, 80⟩ := by
  intro e
  have init : e.status = .init := by decide +kernel
  have free : e.host = .tcp ⟨0⟩ := by decide +kernel
  have trying : e.Trying (refusedAttempt ++ acceptedAttempt) := by decide +kernel
  have first : e.Lifecycle refusedAttempt := connect_lifecycle init free _ (trying_append.mp trying).1
  have second : e.Lifecycle (refusedAttempt ++ acceptedAttempt.take 4) :=
    connect_lifecycle init free _ (by decide +kernel)
  have under : (e.trace (refusedAttempt.take 1)).host = .connecting ⟨0⟩ ⟨Ipv4.unspecified, 80⟩ := by
    decide +kernel
  have breaks : Breaks ⟨0⟩ refusing :=
    ⟨fun up => absurd up.1 (by decide), fun waits => absurd waits.1 (by decide)⟩
  obtain ⟨new, -, asOpened⟩ := ((first.poll (refusedAttempt.take 1) _ _ _ rfl under).2.2 breaks).1 ⟨1⟩ (by rfl)
  have dialled := (second.pending ⟨1⟩ ⟨Ipv4.unspecified, 80⟩ (by decide +kernel)).2
  exact ⟨trying, new, asOpened, by decide +kernel, by decide +kernel, dialled⟩

end Engine

end EtherChip

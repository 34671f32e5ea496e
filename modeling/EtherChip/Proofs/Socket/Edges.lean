import EtherChip.Proofs.Socket.Operation

/-!
# Edges between statuses

A command or a poll changes the status of a socket along a few edges only, and along each of them
exactly if the host answers as the edge says: `CommandEdge` and `PollEdge` list them. They are exact
for every socket whose host socket is the one that its status asks for (`Staged`), so for every socket
that there can be (`status_edges`). A command that does not apply changes nothing at all.
-/
namespace EtherChip.Engine

variable {ν : Type} [NetHost ν]

/-- The changes of status by a command, with what the host has to answer. -/
inductive CommandEdge (e : Engine) (cfg : NetConfig) (net : ν) (code : UInt8) : Status → Prop
  /-- A stream socket can be created. -/
  | opensStream : e.status = .closed → code = Command.openSocket.code →
      e.regs.get Cell.mode &&& 0x0F = 0x01 → Succeeds HostSocket.openTcp net →
      CommandEdge e cfg net code .init
  /-- A datagram socket can be created and bound. -/
  | opensDatagram : e.status = .closed → code = Command.openSocket.code →
      e.regs.get Cell.mode &&& 0x0F = 0x02 → Succeeds (HostSocket.openUdp (e.localEndpoint cfg)) net →
      CommandEdge e cfg net code .udpReady
  /-- The stream socket can be bound and listens. -/
  | listens : e.status = .init → code = Command.listen.code →
      Succeeds (e.host.listen (e.localEndpoint cfg)) net → CommandEdge e cfg net code .listen
  | closes : e.status = .init ∨ e.status = .listen ∨ e.status = .established ∨ e.status = .udpReady →
      code = Command.close.code → CommandEdge e cfg net code .closed
  | disconnects : e.status = .established ∨ e.status = .udpReady → code = Command.disconnect.code →
      CommandEdge e cfg net code .closed
  /-- A write of the waiting bytes fails for good. -/
  | breaks : e.status = .established → code = Command.send.code → Fails (e.host.sendStream e.waiting) net →
      CommandEdge e cfg net code .closed

/-- The changes of status by a poll, with what the host has to answer. -/
inductive PollEdge (e : Engine) (net : ν) : Status → Prop
  /-- The connection under way is up. -/
  | connects (peer : Endpoint) : e.status = .init → (e.host.finishConnect net).1.1 = .ok (some peer) →
      PollEdge e net .established
  /-- The connection under way has failed, and no other stream socket can be created. -/
  | givesUp (why : HostError) : e.status = .init → (e.host.finishConnect net).1.1 = .error why →
      Fails HostSocket.openTcp (e.host.finishConnect net).2 → PollEdge e net .closed
  | accepts (peer : Endpoint) : e.status = .listen → (e.host.acceptNext net).1.1 = .ok (some peer) →
      PollEdge e net .established
  /-- A write of the pending bytes fails for good. -/
  | breaks : e.status = .established → Fails (e.host.sendStream e.pending) net → PollEdge e net .closed
  /-- After the pending bytes: the other end has closed, or the stream fails for good. -/
  | ends : e.status = .established → (e.host.receiveStream e.rxRoom (e.flushStream net).2).1 = .closed →
      PollEdge e net .closed

/-- Along an edge the status changes. -/
theorem CommandEdge.ne {e : Engine} {cfg : NetConfig} {net : ν} {code : UInt8} {next : Status}
    (edge : CommandEdge e cfg net code next) : next ≠ e.status := by
  cases edge with
  | opensStream status | opensDatagram status | listens status | breaks status => simp [status]
  | closes status => rcases status with status | status | status | status <;> simp [status]
  | disconnects status => rcases status with status | status <;> simp [status]

theorem PollEdge.ne {e : Engine} {net : ν} {next : Status} (edge : PollEdge e net next) : next ≠ e.status := by
  cases edge with
  | connects _ status | givesUp _ status | accepts _ status | breaks status | ends status => simp [status]

/-! ## Where an operation leads -/

/-- An operation leads to a status under a condition, and leaves the status alone otherwise. -/
structure Turns (e : Engine) (condition : Prop) (next : Status) (e' : Engine) : Prop where
  turned : condition → e'.status = next
  stayed : ¬ condition → e'.status = e.status

/-- A status that has changed is the one that the operation leads to. -/
theorem Turns.of_ne {e e' : Engine} {condition : Prop} {next : Status} (h : Turns e condition next e')
    (changed : e'.status ≠ e.status) : condition ∧ e'.status = next :=
  have holds : condition := Classical.byContradiction fun no => changed (h.stayed no)
  ⟨holds, h.turned holds⟩

section

variable {e : Engine} (cfg : NetConfig) (net : ν)

theorem openSocket_stream_turns (host : e.host = .none) (mode : e.regs.get Cell.mode &&& 0x0F = 0x01) :
    Turns e (Succeeds HostSocket.openTcp net) .init (e.openSocket cfg net).1 := by
  rw [openSocket_stream e cfg net host (Protocol.ofMode?_eq_tcp.mpr mode)]
  unfold Succeeds
  cases (HostSocket.openTcp net).1 with
  | ok host => exact ⟨fun _ => rfl, fun no => absurd ⟨host, rfl⟩ no⟩
  | error why => exact ⟨nofun, fun _ => status_emptied e⟩

theorem openSocket_datagram_turns (host : e.host = .none) (mode : e.regs.get Cell.mode &&& 0x0F = 0x02) :
    Turns e (Succeeds (HostSocket.openUdp (e.localEndpoint cfg)) net) .udpReady (e.openSocket cfg net).1 := by
  rw [openSocket_datagram e cfg net host (Protocol.ofMode?_eq_udp.mpr mode)]
  unfold Succeeds
  cases (HostSocket.openUdp (e.localEndpoint cfg) net).1 with
  | ok host => exact ⟨fun _ => rfl, fun no => absurd ⟨host, rfl⟩ no⟩
  | error why => exact ⟨nofun, fun _ => status_emptied e⟩

theorem listen_turns : Turns e (Succeeds (e.host.listen (e.localEndpoint cfg)) net) .listen (e.listen cfg net).1 := by
  rw [listen_run]
  unfold Succeeds
  cases (e.host.listen (e.localEndpoint cfg) net).1 with
  | ok host => exact ⟨fun _ => rfl, fun no => absurd ⟨host, rfl⟩ no⟩
  | error why => exact ⟨nofun, fun _ => rfl⟩

theorem status_connect : (e.connect cfg net).1.status = e.status := by
  by_cases under : e.isConnecting
  · rw [connect_connecting cfg under]
    rfl
  · rw [connect_run e cfg net (Bool.eq_false_iff.mpr under)]
    cases (e.host.connect (e.destEndpoint cfg) net).1 <;> rfl

theorem flushStream_turns {id : SocketId} (host : e.host = .stream id) (status : e.status = .established) :
    Turns e (Fails (e.host.sendStream e.pending) net) .closed (e.flushStream net).1 := by
  obtain ⟨lost, kept⟩ := status_flushStream host status net
  exact ⟨fun failed => by rw [lost failed, status_closed], fun worked => (kept worked).1.trans status.symm⟩

theorem pollStream_turns (e : Engine) (room : Nat) (net : ν) :
    Turns e ((e.host.receiveStream room net).1 = .closed) .closed (e.pollStream room net).1 := by
  rw [pollStream_run]
  cases (e.host.receiveStream room net).1 with
  | idle => exact ⟨nofun, fun _ => rfl⟩
  | data bytes => exact ⟨nofun, fun _ => status_deliver e bytes⟩
  | closed => exact ⟨fun _ => rfl, fun no => absurd rfl no⟩

/-! ## Commands -/

/-- What OPEN does to the status of a closed socket. -/
theorem edge_openSocket (host : e.host = .none) (status : e.status = .closed)
    (changed : (e.openSocket cfg net).1.status ≠ e.status) :
    CommandEdge e cfg net Command.openSocket.code (e.openSocket cfg net).1.status := by
  cases mode : Protocol.ofMode? (e.regs.get Cell.mode) with
  | none =>
    rw [openSocket_unsupported cfg mode] at changed
    exact absurd rfl changed
  | some protocol =>
    cases protocol with
    | tcp =>
      have nibble := Protocol.ofMode?_eq_tcp.mp mode
      obtain ⟨works, next⟩ := (openSocket_stream_turns cfg net host nibble).of_ne changed
      exact next ▸ .opensStream status rfl nibble works
    | udp =>
      have nibble := Protocol.ofMode?_eq_udp.mp mode
      obtain ⟨works, next⟩ := (openSocket_datagram_turns cfg net host nibble).of_ne changed
      exact next ▸ .opensDatagram status rfl nibble works

/-- A change of status by a command is along an edge. -/
theorem edge_of_command (staged : Staged e) (code : UInt8) (changed : (e.command cfg code net).1.status ≠ e.status) :
    CommandEdge e cfg net code (e.command cfg code net).1.status := by
  generalize run : (e.command cfg code : StateM ν Engine) = x at changed ⊢
  unfold command at run
  generalize given : Command.ofCode? code = command at run
  split at run <;> subst run <;> try obtain rfl := Command.ofCode?_eq_some.mp given
  case h_1 status => exact edge_openSocket cfg net (staged.none status) status changed
  case h_2 => exact absurd (status_connect cfg net) changed
  case h_3 status =>
    obtain ⟨works, next⟩ := (listen_turns cfg net).of_ne changed
    exact next ▸ .listens status rfl works
  case h_4 status => exact .closes (.inl status) rfl
  case h_5 status => exact .closes (.inr (.inl status)) rfl
  case h_6 status => exact .closes (.inr (.inr (.inl status))) rfl
  case h_7 status => exact .disconnects (.inl status) rfl
  case h_8 status => exact .closes (.inr (.inr (.inr status))) rfl
  case h_9 status => exact .disconnects (.inr status) rfl
  case h_10 status =>
    obtain ⟨id, host⟩ := staged.stream status
    rw [send_established e cfg status] at changed ⊢
    have turns := flushStream_turns (e := e.capture) net host status
    obtain ⟨fails, next⟩ := turns.of_ne changed
    exact next ▸ .breaks status rfl fails
  case h_11 status =>
    rw [send_udpReady e cfg status] at changed
    exact absurd (status_sendWaiting e cfg net) changed
  all_goals exact absurd rfl changed

/-- An edge is where its command leads. -/
theorem CommandEdge.arrives (staged : Staged e) {code : UInt8} {next : Status} (edge : CommandEdge e cfg net code next) :
    (e.command cfg code net).1.status = next := by
  cases edge with
  | opensStream status given mode works =>
    rw [given, command, status, Command.ofCode?_code]
    exact (openSocket_stream_turns cfg net (staged.none status) mode).turned works
  | opensDatagram status given mode works =>
    rw [given, command, status, Command.ofCode?_code]
    exact (openSocket_datagram_turns cfg net (staged.none status) mode).turned works
  | listens status given works =>
    rw [given, command, status, Command.ofCode?_code]
    exact (listen_turns cfg net).turned works
  | closes status given =>
    rw [given, command, Command.ofCode?_code]
    rcases status with status | status | status | status <;> rw [status] <;> rfl
  | disconnects status given =>
    rw [given, command, Command.ofCode?_code]
    rcases status with status | status <;> rw [status] <;> rfl
  | breaks status given fails =>
    obtain ⟨id, host⟩ := staged.stream status
    rw [given, command_send e cfg (.inl status), send_established e cfg status]
    exact (flushStream_turns (e := e.capture) net host status).turned fails

/-! ## Polls -/

/-- Nothing is read from a stream that a write has lost. -/
theorem poll_lost (status : e.status = .established) (lost : (e.flushStream net).1 = e.closed) :
    (e.poll net).1.status = .closed := by
  rw [poll_established status net, pollStream_run, lost]
  rfl

theorem edge_of_poll_established {id : SocketId} (host : e.host = .stream id) (status : e.status = .established)
    (changed : (e.poll net).1.status ≠ e.status) : PollEdge e net (e.poll net).1.status := by
  obtain ⟨lost, kept⟩ := status_flushStream host status net
  by_cases failed : Fails (e.host.sendStream e.pending) net
  · rw [poll_lost net status (lost failed)]
    exact .breaks status failed
  · obtain ⟨up, same⟩ := kept failed
    rw [poll_established status net] at changed ⊢
    have turns := pollStream_turns (e.flushStream net).1 e.rxRoom (e.flushStream net).2
    rw [same] at turns
    obtain ⟨ended, next⟩ := turns.of_ne (up.trans status.symm ▸ changed)
    exact next ▸ .ends status ended

/-- A change of status by a poll is along an edge. -/
theorem edge_of_poll (staged : Staged e) (changed : (e.poll net).1.status ≠ e.status) :
    PollEdge e net (e.poll net).1.status := by
  cases status : e.status
  case established =>
    obtain ⟨id, host⟩ := staged.stream status
    exact edge_of_poll_established net host status changed
  all_goals
    rw [poll, status] at changed ⊢
    dsimp only at changed ⊢
  case closed => exact absurd status changed
  case init =>
    rw [pollConnect_run] at changed ⊢
    rcases found : (e.host.finishConnect net).1 with ⟨why | _ | peer, host⟩ <;> rw [found] at changed
    case error =>
      rcases again : (HostSocket.openTcp (e.host.finishConnect net).2).1 with _ | fresh <;> rw [again] at changed
      · exact .givesUp why status (congrArg Prod.fst found) ⟨_, again⟩
      · exact absurd status changed
    case ok.none => exact absurd status changed
    case ok.some => exact .connects peer status (congrArg Prod.fst found)
  case listen =>
    rw [pollListener_run] at changed ⊢
    rcases found : (e.host.acceptNext net).1 with ⟨why | _ | peer, host⟩ <;> rw [found] at changed
    case error => exact absurd status changed
    case ok.none => exact absurd status changed
    case ok.some => exact .accepts peer status (congrArg Prod.fst found)
  case udpReady =>
    rw [pollDatagram_run] at changed
    split at changed
    · exact absurd ((status_deliver e _).trans status) changed
    · exact absurd status changed

/-- An edge is where a poll leads. -/
theorem PollEdge.arrives (staged : Staged e) {next : Status} (edge : PollEdge e net next) :
    (e.poll net).1.status = next := by
  cases edge with
  | connects peer status found =>
    have found : (e.host.finishConnect net).1 = (.ok (some peer), (e.host.finishConnect net).1.2) :=
      Prod.ext found rfl
    rw [poll, status]
    dsimp only
    rw [pollConnect_run, found]
    rfl
  | givesUp why status found fails =>
    obtain ⟨_, again⟩ := fails
    have found : (e.host.finishConnect net).1 = (.error why, (e.host.finishConnect net).1.2) :=
      Prod.ext found rfl
    rw [poll, status]
    dsimp only
    rw [pollConnect_run, found, again]
    rfl
  | accepts peer status found =>
    have found : (e.host.acceptNext net).1 = (.ok (some peer), (e.host.acceptNext net).1.2) :=
      Prod.ext found rfl
    rw [poll, status]
    dsimp only
    rw [pollListener_run, found]
    rfl
  | breaks status failed =>
    obtain ⟨id, host⟩ := staged.stream status
    exact poll_lost net status ((status_flushStream host status net).1 failed)
  | ends status ended =>
    obtain ⟨id, host⟩ := staged.stream status
    obtain ⟨lost, kept⟩ := status_flushStream host status net
    by_cases failed : Fails (e.host.sendStream e.pending) net
    · exact poll_lost net status (lost failed)
    · rw [poll_established status net]
      exact (pollStream_turns _ _ _).turned ((kept failed).2 ▸ ended)

end

/-! ## Both -/

/-- **Edges of the state machine.** After every history from power-on, whatever the host answers: a
command changes the status along the edges of `CommandEdge` and a poll along those of `PollEdge`, and
along every one of them that there is; a byte that gives no command which applies leaves the whole
socket and the host as they were. -/
theorem status_edges (history : List (Event × ν)) (cfg : NetConfig) (code : UInt8) (net : ν) :
    let e := powerOn.trace history
    (∀ next, CommandEdge e cfg net code next ↔ (e.command cfg code net).1.status = next ∧ next ≠ e.status) ∧
    ((∀ command, code = command.code → ¬ e.Applies command) → e.command cfg code net = (e, net)) ∧
    ∀ next, PollEdge e net next ↔ (e.poll net).1.status = next ∧ next ≠ e.status := by
  intro e
  have staged : Staged e := staged_trace history
  refine ⟨fun next => ⟨fun edge => ⟨edge.arrives cfg net staged, edge.ne⟩, ?_⟩, fun ignored => ?_,
    fun next => ⟨fun edge => ⟨edge.arrives net staged, edge.ne⟩, ?_⟩⟩
  · rintro ⟨rfl, changed⟩
    exact edge_of_command cfg net staged code changed
  · rw [command_ignored cfg ignored]
    rfl
  · rintro ⟨rfl, changed⟩
    exact edge_of_poll net staged changed

end EtherChip.Engine

import EtherChip.Proofs.Socket.Stage
import EtherChip.Proofs.Socket.Transmit

/-!
# What commands and polls come to

Which commands apply to a socket, and that any other byte makes no call and changes nothing
(`command_ignored`). For each command and each poll that asks the host for something: the socket
afterwards, as a function of the socket before and of what the host has answered.
-/
namespace EtherChip

theorem Command.ofCode?_eq_some {b : UInt8} {c : Command} : ofCode? b = some c ↔ b = c.code := by
  refine ⟨fun h => ?_, fun h => h ▸ ofCode?_code c⟩
  have found := List.find?_some h
  exact (eq_of_beq found).symm

theorem Protocol.ofMode?_eq_tcp {mode : UInt8} : ofMode? mode = some tcp ↔ mode &&& 0x0F = 0x01 := by
  by_cases stream : mode &&& 0x0F = 0x01 <;> by_cases datagram : mode &&& 0x0F = 0x02 <;>
    simp [ofMode?, code, stream, datagram]

theorem Protocol.ofMode?_eq_udp {mode : UInt8} : ofMode? mode = some udp ↔ mode &&& 0x0F = 0x02 := by
  by_cases stream : mode &&& 0x0F = 0x01 <;> by_cases datagram : mode &&& 0x0F = 0x02 <;>
    simp [ofMode?, code, stream, datagram]

namespace Engine

variable {ν : Type} [NetHost ν]

@[simp] theorem status_closed (e : Engine) : e.closed.status = .closed := rfl

@[simp] theorem status_emptied (e : Engine) : e.emptied.status = e.status := by
  dsimp only [emptied, resetPointers]

theorem Staged.none {e : Engine} (h : Staged e) (status : e.status = .closed) : e.host = .none := by
  have backed := h.backed
  rw [status] at backed
  exact backed.1

/-! ## Commands that apply -/

/-- The commands that are not ignored. OPEN needs a mode that names a protocol, and a connection under
way is neither started again nor given up for listening. -/
def Applies (e : Engine) : Command → Prop
  | .openSocket => e.status = .closed ∧ (Protocol.ofMode? (e.regs.get Cell.mode)).isSome
  | .connect | .listen => e.status = .init ∧ e.isConnecting = false
  | .close => e.status ≠ .closed
  | .disconnect | .send | .receive => e.status = .established ∨ e.status = .udpReady

instance (e : Engine) : DecidablePred e.Applies
  | .openSocket | .connect | .listen => inferInstanceAs (Decidable (_ ∧ _))
  | .close => inferInstanceAs (Decidable (_ ≠ _))
  | .disconnect | .send | .receive => inferInstanceAs (Decidable (_ ∨ _))

theorem openSocket_unsupported {e : Engine} (cfg : NetConfig)
    (mode : Protocol.ofMode? (e.regs.get Cell.mode) = none) : (e.openSocket cfg : StateM ν Engine) = pure e := by
  rw [openSocket, mode]

theorem connect_connecting {e : Engine} (cfg : NetConfig) (h : e.isConnecting = true) :
    (e.connect cfg : StateM ν Engine) = pure e := by
  rw [connect, if_pos h]

theorem listen_connecting {e : Engine} (cfg : NetConfig) (h : e.isConnecting = true) :
    (e.listen cfg : StateM ν Engine) = pure e := by
  unfold isConnecting HostSocket.isConnecting at h
  split at h
  · rename_i id dest host
    rw [listen, host]
    rfl
  · exact nomatch h

/-- **A byte that gives no command which applies is ignored:** nothing changes and the host is not
asked. -/
theorem command_ignored {e : Engine} (cfg : NetConfig) {code : UInt8}
    (h : ∀ command, code = command.code → ¬ e.Applies command) :
    (e.command cfg code : StateM ν Engine) = pure e := by
  unfold command
  generalize given : Command.ofCode? code = command
  split
  case h_14 => rfl
  case h_1 status =>
    have never := h .openSocket (Command.ofCode?_eq_some.mp given)
    exact openSocket_unsupported cfg (by simpa [Applies, status] using never)
  case h_2 status =>
    have never := h .connect (Command.ofCode?_eq_some.mp given)
    exact connect_connecting cfg (by simpa [Applies, status] using never)
  case h_3 status =>
    have never := h .listen (Command.ofCode?_eq_some.mp given)
    exact listen_connecting cfg (by simpa [Applies, status] using never)
  all_goals
    rename_i status
    have never := h _ (Command.ofCode?_eq_some.mp given)
    simp [Applies, status] at never

/-! ## OPEN, LISTEN and CONNECT -/

section

variable (e : Engine) (cfg : NetConfig) (net : ν)

theorem localEndpoint_emptied : e.emptied.localEndpoint cfg = e.localEndpoint cfg := by
  unfold localEndpoint emptied resetPointers
  dsimp only
  simp (disch := decide) only [RegisterBank.word_setWord_of_apart]

theorem openSocket_stream (host : e.host = .none) (mode : Protocol.ofMode? (e.regs.get Cell.mode) = some .tcp) :
    (e.openSocket cfg net).1 =
      match (HostSocket.openTcp net).1 with
      | .ok host => enter { e.emptied with host := host, protocol := some .tcp } .init
      | .error _ => e.emptied := by
  have run : (e.openSocket cfg : StateM ν Engine) = e.emptied.openStream := by
    rw [openSocket, mode, host]
    rfl
  rw [run, openStream, bind_run]
  cases (HostSocket.openTcp net).1 <;> rfl

theorem openSocket_datagram (host : e.host = .none) (mode : Protocol.ofMode? (e.regs.get Cell.mode) = some .udp) :
    (e.openSocket cfg net).1 =
      match (HostSocket.openUdp (e.localEndpoint cfg) net).1 with
      | .ok host => enter { e.emptied with host := host, protocol := some .udp } .udpReady
      | .error _ => e.emptied := by
  have run : (e.openSocket cfg : StateM ν Engine) = e.emptied.openDatagram cfg := by
    rw [openSocket, mode, host]
    rfl
  rw [run, openDatagram, localEndpoint_emptied, bind_run]
  cases (HostSocket.openUdp (e.localEndpoint cfg) net).1 with
  | error _ => rfl
  | ok host =>
    dsimp only
    split <;> rfl

theorem listen_run :
    (e.listen cfg net).1 =
      match (e.host.listen (e.localEndpoint cfg) net).1 with
      | .ok host => enter { e with host := host } .listen
      | .error _ => e := by
  unfold listen
  rw [bind_run]
  cases (e.host.listen (e.localEndpoint cfg) net).1 <;> rfl

theorem connect_run (free : e.isConnecting = false) :
    (e.connect cfg net).1 =
      match (e.host.connect (e.destEndpoint cfg) net).1 with
      | .ok host => { e with host := host }
      | .error _ => e := by
  unfold connect
  rw [if_neg (by simp [free]), bind_run]
  cases (e.host.connect (e.destEndpoint cfg) net).1 <;> rfl

/-! ## SEND -/

theorem status_sendWaiting : (e.sendWaiting cfg net).1.status = e.status := by
  unfold sendWaiting
  dsimp only
  split
  · exact status_completeSend _ _
  · rw [bind_run]
    refine (status_completeSend _ _).trans ?_
    rw [sendDatagram_eq]
    cases e.answered? cfg (e.tx.copyOut e.txRead (RingOffset.distance e.txRead e.txWrite)) net with
    | none => rfl
    | some data => exact status_deliver e data

end

theorem sendStream_nil (id : SocketId) (net : ν) : ¬ Fails ((HostSocket.stream id).sendStream []) net := by
  rintro ⟨why, failed⟩
  rw [HostSocket.sendStream, HostSocket.writeAll_nil] at failed
  cases failed

/-- A flush loses the connection exactly if the host fails to take the pending bytes. -/
theorem status_flushStream {e : Engine} {id : SocketId} (host : e.host = .stream id)
    (status : e.status = .established) (net : ν) :
    (Fails (e.host.sendStream e.pending) net → (e.flushStream net).1 = e.closed) ∧
    (¬ Fails (e.host.sendStream e.pending) net →
      (e.flushStream net).1.status = .established ∧ (e.flushStream net).1.host = e.host) := by
  rw [host]
  cases sending : e.sendEnd with
  | none =>
    rw [pending_of_none sending, flushStream_of_none sending]
    exact ⟨fun failed => absurd failed (sendStream_nil id net), fun _ => ⟨status, host⟩⟩
  | some stop =>
    rw [pending_of_some sending, flushStream_of_some sending, host]
    split
    · rename_i same
      rw [same, Ring.copyOut_zero]
      exact ⟨fun failed => absurd failed (sendStream_nil id net), fun _ =>
        ⟨(status_completeSend _ _).trans status, host_completeSend _ _⟩⟩
    · rw [bind_run, Fails]
      generalize (HostSocket.stream id).sendStream (e.tx.copyOut e.txRead _) net = answer
      cases answer.1 with
      | error why => exact ⟨fun _ => rfl, fun worked => absurd ⟨why, rfl⟩ worked⟩
      | ok sent =>
        refine ⟨nofun, fun _ => ?_⟩
        dsimp only
        split
        · split
          · exact ⟨status, host⟩
          · exact ⟨(status_showSent _ _).trans status, (host_showSent _ _).trans host⟩
        · exact ⟨(status_completeSend _ _).trans status, host_completeSend _ _⟩

/-! ## Polls -/

/-- A poll of an established stream writes what is pending, then reads. -/
theorem poll_established {e : Engine} (status : e.status = .established) (net : ν) :
    e.poll net = (e.flushStream net).1.pollStream e.rxRoom (e.flushStream net).2 := by
  rw [poll, status]
  rfl

theorem poll_udpReady {e : Engine} (status : e.status = .udpReady) (net : ν) :
    e.poll net = e.pollDatagram e.rxRoom net := by
  rw [poll, status]

section

variable (e : Engine) (net : ν)

theorem pollListener_run :
    (e.pollListener net).1 =
      match (e.host.acceptNext net).1 with
      | (.ok (some peer), host) => enter { e with regs := e.regs.showPeer peer, host := host } .established
      | (_, host) => { e with host := host } := by
  unfold pollListener
  rw [bind_run]
  rcases (e.host.acceptNext net).1 with ⟨_ | _ | peer, host⟩ <;> rfl

theorem pollConnect_run :
    (e.pollConnect net).1 =
      match (e.host.finishConnect net).1 with
      | (.ok (some _), host) => enter { e with host := host } .established
      | (.ok none, host) => { e with host := host }
      | (.error _, _) =>
        match (HostSocket.openTcp (e.host.finishConnect net).2).1 with
        | .ok fresh => { e with host := fresh }
        | .error _ => e.closed := by
  unfold pollConnect
  rw [bind_run]
  generalize e.host.finishConnect net = found
  rcases found with ⟨⟨_ | _ | peer, host⟩, net'⟩
  · dsimp only
    rw [bind_run]
    cases (HostSocket.openTcp net').1 <;> rfl
  · rfl
  · rfl

theorem pollStream_run (room : Nat) :
    (e.pollStream room net).1 =
      match (e.host.receiveStream room net).1 with
      | .idle => e
      | .data bytes => e.deliver bytes
      | .closed => e.closed := by
  unfold pollStream
  rw [bind_run]
  cases (e.host.receiveStream room net).1 <;> rfl

/-- A read of a stream that is not closed is the only call of a poll. -/
theorem pollStream_net (room : Nat) (goes : (e.host.receiveStream room net).1 ≠ .closed) :
    (e.pollStream room net).2 = (e.host.receiveStream room net).2 := by
  unfold pollStream
  rw [bind_run]
  cases found : (e.host.receiveStream room net).1 with
  | idle | data bytes => rfl
  | closed => exact absurd found goes

theorem pollDatagram_net (room : Nat) :
    (e.pollDatagram room net).2 = (e.host.receiveDatagram room net).2 := by
  unfold pollDatagram
  rw [bind_run]
  rcases (e.host.receiveDatagram room net).1 with _ | _ | _ | _ | _ <;> rfl

theorem pollDatagram_run (room : Nat) :
    (e.pollDatagram room net).1 =
      match (e.host.receiveDatagram room net).1 with
      | .ok (.received source bytes) => e.deliver (receiveHeader source bytes.length ++ bytes)
      | _ => e := by
  unfold pollDatagram
  rw [bind_run]
  rcases (e.host.receiveDatagram room net).1 with _ | _ | _ | _ | _ <;> rfl

end

end Engine

end EtherChip

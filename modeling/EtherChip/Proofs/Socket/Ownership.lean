import EtherChip.Proofs.Host.Ledger
import EtherChip.Proofs.Socket.Change

/-!
# A socket accounts for its host socket

Whatever happens to a socket, the host socket that it held and those that the host gives it meanwhile are
closed or held afterwards, each once (`conserves_step`). No invariant is needed for that: it holds of every
socket, also where a command fails half-way, where a failed connection gives way to a new stream socket,
where an accepted connection takes the place of its listener, and where a send error closes the stream in
the middle of a poll.
-/
namespace EtherChip.Engine

open Ledger

variable {ν : Type}

/-- The program accounts for the host socket of a socket. -/
abbrev Accounts (e : Engine) (x : StateM (Ledger ν) Engine) : Prop :=
  Conserves x e.host.owned fun e' => e'.host.owned

/-- What keeps the host socket. -/
theorem accounts_pure {e e' : Engine} (same : e'.host = e.host) : e.Accounts (pure e' : StateM (Ledger ν) Engine) :=
  .pure (same ▸ .refl _)

variable [NetHost ν]

theorem accounts_release (e : Engine) : e.Accounts (e.release : StateM (Ledger ν) Engine) :=
  .bind (conserves_close e.host) fun _ => .pure (.refl _)

theorem accounts_reset (e : Engine) : e.Accounts (e.reset : StateM (Ledger ν) Engine) :=
  .bind (conserves_close e.host) fun _ => .pure (.refl _)

theorem accounts_load (e : Engine) (state : SocketState) : e.Accounts (e.load state : StateM (Ledger ν) Engine) :=
  .bind (conserves_close e.host) fun _ => .pure (.refl _)

@[simp] theorem host_deliver (e : Engine) (data : Bytes) : (e.deliver data).host = e.host := by
  unfold deliver deliver?
  split <;> rfl

@[simp] theorem host_store (e : Engine) (cell : Nat) (value : UInt8) : (e.store cell value).host = e.host := by
  unfold store
  repeat' split
  all_goals rfl

/-! ## Commands -/

theorem accounts_openStream {e : Engine} (none : e.host = .none) :
    e.Accounts (e.openStream : StateM (Ledger ν) Engine) := by
  unfold Accounts
  rw [none]
  refine .bind conserves_openTcp fun opened => ?_
  cases opened with
  | ok host => exact .pure (.refl _)
  | error _ => exact .pure (by rw [none]; exact .refl _)

/-- A datagram socket that cannot be bound has been closed again. -/
theorem accounts_openDatagram {e : Engine} (none : e.host = .none) (cfg : NetConfig) :
    e.Accounts (e.openDatagram cfg : StateM (Ledger ν) Engine) := by
  unfold Accounts
  rw [none]
  refine .bind (conserves_openUdp _) fun opened => ?_
  cases opened with
  | error _ => exact .pure (by rw [none]; exact .refl _)
  | ok host =>
    dsimp only
    split
    · exact .bind (conserves_joinGroup host _ _ _) fun _ => .pure (.refl _)
    · exact .pure (.refl _)

theorem accounts_openSocket (e : Engine) (cfg : NetConfig) :
    e.Accounts (e.openSocket cfg : StateM (Ledger ν) Engine) := by
  unfold Accounts openSocket
  cases Protocol.ofMode? (e.regs.get Cell.mode) with
  | none => exact accounts_pure rfl
  | some protocol =>
    refine .bind (conserves_close e.host) fun _ => ?_
    cases protocol with
    | tcp => exact accounts_openStream rfl
    | udp => exact accounts_openDatagram rfl cfg

theorem accounts_connect (e : Engine) (cfg : NetConfig) : e.Accounts (e.connect cfg : StateM (Ledger ν) Engine) := by
  unfold Accounts connect
  split
  · exact accounts_pure rfl
  · refine .bind (conserves_connect e.host _) fun started => ?_
    cases started <;> exact .pure (.refl _)

theorem accounts_listen (e : Engine) (cfg : NetConfig) : e.Accounts (e.listen cfg : StateM (Ledger ν) Engine) := by
  refine .bind (conserves_listen e.host _) fun listening => ?_
  cases listening <;> exact .pure (.refl _)

/-- A hard error of the host closes the stream. -/
theorem accounts_flushStream (e : Engine) : e.Accounts (e.flushStream : StateM (Ledger ν) Engine) := by
  unfold Accounts flushStream
  split
  · exact accounts_pure rfl
  · rename_i stop _
    dsimp only
    split
    · exact accounts_pure (host_completeSend { e with sendEnd := none } stop)
    · refine .bind (conserves_sendStream e.host _ _) fun sent => ?_
      cases sent with
      | error _ => exact accounts_release e
      | ok sent =>
        dsimp only
        split
        · split
          · exact accounts_pure rfl
          · exact accounts_pure (host_showSent e _)
        · exact accounts_pure (host_completeSend { e with sendEnd := none } stop)

theorem accounts_sendDatagram (e : Engine) (cfg : NetConfig) (data : Bytes) :
    e.Accounts (e.sendDatagram cfg data : StateM (Ledger ν) Engine) := by
  unfold Accounts sendDatagram
  dsimp only
  split
  · exact accounts_pure (host_deliver e _)
  · split
    · refine .get fun l => ?_
      cases Sntp.respond? data cfg.serverAddr (NetHost.clock l) with
      | some reply => exact accounts_pure (host_deliver e reply)
      | none => exact accounts_pure rfl
    · exact .bind (conserves_sendDatagram e.host _ _ _) fun _ => .pure (.refl _)

theorem accounts_sendWaiting (e : Engine) (cfg : NetConfig) :
    e.Accounts (e.sendWaiting cfg : StateM (Ledger ν) Engine) := by
  have complete (e' : Engine) (position : RingOffset) :
      e'.Accounts (pure (e'.completeSend position) : StateM (Ledger ν) Engine) :=
    accounts_pure (host_completeSend e' position)
  unfold Accounts sendWaiting
  dsimp only
  split
  · exact complete e _
  · exact .bind (accounts_sendDatagram e cfg _) fun e' => complete e' _

/-- **A command accounts for the host socket**, whether or not it applies and whatever the host answers. -/
theorem accounts_command (e : Engine) (cfg : NetConfig) (code : UInt8) :
    e.Accounts (e.command cfg code : StateM (Ledger ν) Engine) := by
  have send : e.Accounts (e.send cfg : StateM (Ledger ν) Engine) := by
    unfold send
    split
    · exact accounts_flushStream { e with sendEnd := some e.txWrite }
    · exact accounts_sendWaiting e cfg
    · exact accounts_pure rfl
  unfold command
  split
  case h_1 => exact accounts_openSocket e cfg
  case h_2 => exact accounts_connect e cfg
  case h_3 => exact accounts_listen e cfg
  case h_10 | h_11 => exact send
  case h_12 | h_13 | h_14 => exact accounts_pure rfl
  all_goals exact accounts_release e

/-! ## Polling -/

theorem accounts_pollListener (e : Engine) : e.Accounts (e.pollListener : StateM (Ledger ν) Engine) := by
  refine .bind (conserves_acceptNext e.host) fun r => ?_
  obtain ⟨answer, host⟩ := r
  rcases answer with _ | _ | peer <;> exact .pure (.refl _)

/-- A failed connection is closed, whether or not a new stream socket takes its place. -/
theorem accounts_pollConnect (e : Engine) : e.Accounts (e.pollConnect : StateM (Ledger ν) Engine) := by
  refine .bind (conserves_finishConnect e.host) fun r => ?_
  obtain ⟨answer, host⟩ := r
  rcases answer with _ | _ | peer
  · refine .bind ((conserves_openTcp.beside host.owned).perm (.of_eq (List.append_nil _).symm) fun _ => .refl _)
      fun opened => ?_
    cases opened with
    | error _ =>
      exact (accounts_release { e with host := host }).perm (.of_eq (List.append_nil _)) fun _ => .refl _
    | ok fresh =>
      refine .bind (((conserves_close host).beside fresh.owned).perm List.perm_append_comm fun _ => .refl _)
        fun _ => .pure ?_
      exact .of_eq (List.append_nil _)
  · exact .pure (.refl _)
  · exact .pure (.refl _)

theorem accounts_pollStream (e : Engine) (room : Nat) :
    e.Accounts (e.pollStream room : StateM (Ledger ν) Engine) := by
  refine .bind (conserves_receiveStream e.host room _) fun event => ?_
  cases event with
  | idle => exact accounts_pure rfl
  | data bytes => exact accounts_pure (host_deliver e bytes)
  | closed => exact accounts_release e

theorem accounts_pollDatagram (e : Engine) (room : Nat) :
    e.Accounts (e.pollDatagram room : StateM (Ledger ν) Engine) := by
  refine .bind (conserves_receiveDatagram e.host room _) fun found => ?_
  split
  · exact accounts_pure (host_deliver e _)
  · exact accounts_pure rfl

theorem accounts_poll (e : Engine) : e.Accounts (e.poll : StateM (Ledger ν) Engine) := by
  unfold poll
  cases e.status with
  | closed => exact accounts_pure rfl
  | init => exact accounts_pollConnect e
  | listen => exact accounts_pollListener e
  | established => exact .bind (accounts_flushStream e) fun e' => accounts_pollStream e' _
  | udpReady => exact accounts_pollDatagram e _

/-! ## Events -/

/-- **Step.** Whatever happens to a socket, it accounts for its host socket. -/
theorem accounts_step (e : Engine) (event : Event) : e.Accounts (e.step event : StateM (Ledger ν) Engine) := by
  cases event with
  | write cfg cell value =>
    dsimp only [step]
    unfold writeRegister
    split
    · exact accounts_command e cfg value
    · exact accounts_pure (host_store e cell value)
  | command cfg code => exact accounts_command e cfg code
  | storeTx | storeRx => exact accounts_pure rfl
  | deliver data => exact accounts_pure (host_deliver e data)
  | poll => exact accounts_poll e
  | reset => exact accounts_reset e
  | load state => exact accounts_load e state

end EtherChip.Engine

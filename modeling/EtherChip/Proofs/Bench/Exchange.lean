import EtherChip.Proofs.Bench.Play
import EtherChip.Proofs.Socket.Dispatch
import EtherChip.Proofs.Socket.Refusal

/-!
# One request and its reply

A demo opens a datagram socket, sends one request to a built-in service and takes the reply out of the
receive ring. It does not matter what the registers and rings held before: OPEN sets all pointers to
zero, everything else that is used is written first, and the bytes that are read are those that the reply
has just put there (`Completes.exchange_reply`). If the host refuses the socket, the demo says so with the
status that it reads (`Completes.exchange_refused`).
-/
namespace EtherChip

open AddressSpace RegisterBank

variable {ν : Type} [NetHost ν]

namespace Engine

/-! ## What the firmware reads and writes -/

/-- Behind the status cell, words are read as they are stored. -/
theorem readWord_eq (e : Engine) {cell : Nat} (after : Cell.status < cell) : e.readWord cell = e.regs.word cell := by
  have stored (i : Nat) (after : Cell.status < i) : e.readRegister i = e.regs.get i := by
    simp only [Cell.status] at after
    rw [readRegister, if_neg (by simp only [Cell.command]; omega), if_neg (by simp only [Cell.status]; omega)]
  rw [readWord, stored cell after, stored (cell + 1) (Nat.lt_succ_of_lt after), word]

theorem store_word (e : Engine) {cell : Nat} (high : plainCell cell = true) (low : plainCell (cell + 1) = true)
    (w : UInt16) :
    (e.store cell (highByte w)).store (cell + 1) (lowByte w) = { e with regs := e.regs.setWord cell w } := by
  rw [store_plain _ high, store_plain _ low]
  rfl

theorem storeAll_octets (e : Engine) (ip : Ipv4) :
    e.storeAll Cell.destAddr ip.octets = { e with regs := e.regs.setDestAddr ip } := by
  rw [Ipv4.octets, storeAll, storeAll, storeAll, storeAll, storeAll, store_plain _ (by decide),
    store_plain _ (by decide), store_plain _ (by decide), store_plain _ (by decide)]
  rfl

/-- The registers ask for a datagram socket on a port. -/
def prepared (e : Engine) (port : UInt16) : Engine :=
  { e with regs := (e.regs.set Cell.mode Protocol.udp.code).setWord Cell.sourcePort port }

/-- A datagram socket as OPEN leaves it. -/
def opened (e : Engine) (port : UInt16) (host : HostSocket) : Engine :=
  enter { (e.prepared port).emptied with host := host, protocol := some .udp } .udpReady

/-- The registers name a destination. -/
def addressed (e : Engine) (dest : Endpoint) : Engine :=
  { e with regs := (e.regs.setDestAddr dest.ip).setWord Cell.destPort dest.port }

/-! ## OPEN -/

/-- With the mode of a datagram socket and no multicast, OPEN asks the host for a bound socket and for nothing else. -/
theorem openSocket_bound {e : Engine} (none : e.host = .none) (mode : e.regs.get Cell.mode = Protocol.udp.code)
    (cfg : NetConfig) (net : ν) :
    e.openSocket cfg net =
      let asked := HostSocket.openUdp (e.localEndpoint cfg) net
      (match asked.1 with
        | .ok host => enter { e.emptied with host := host, protocol := some .udp } .udpReady
        | .error _ => e.emptied, asked.2) := by
  have run : (e.openSocket cfg : StateM ν Engine) = e.emptied.openDatagram cfg := by
    rw [openSocket, mode, none]
    rfl
  have plain : wantsMulticast (e.emptied.regs.get Cell.mode) = false := by
    rw [get_emptied _ (by decide), mode]
    rfl
  rw [run, openDatagram, localEndpoint_emptied, bind_run]
  generalize e.emptied = emptied at plain ⊢
  generalize HostSocket.openUdp (e.localEndpoint cfg) net = asked
  obtain ⟨answer, net'⟩ := asked
  cases answer with
  | error _ => rfl
  | ok host =>
    dsimp only
    rw [plain]
    rfl

theorem command_open {e : Engine} (closed : e.status = .closed) (cfg : NetConfig) :
    (e.command cfg Command.openSocket.code : StateM ν Engine) = e.openSocket cfg := by
  unfold command
  rw [Command.ofCode?_code, closed]

theorem open_prepared {e : Engine} (closed : e.status = .closed) (none : e.host = .none) (port : UInt16)
    (cfg : NetConfig) (net : ν) :
    (e.prepared port).command cfg Command.openSocket.code net =
      let asked := HostSocket.openUdp ⟨cfg.bindAddr, cfg.remapPort port⟩ net
      (match asked.1 with
        | .ok host => e.opened port host
        | .error _ => (e.prepared port).emptied, asked.2) := by
  have mode : (e.prepared port).regs.get Cell.mode = Protocol.udp.code := by
    dsimp only [prepared]
    rw [get_setWord_of_ne _ _ (by decide) (by decide), get_set_self _ _ (by decide)]
  have endpoint : (e.prepared port).localEndpoint cfg = ⟨cfg.bindAddr, cfg.remapPort port⟩ := by
    dsimp only [prepared, localEndpoint]
    rw [word_setWord_self _ _ (by decide)]
  have closed' : (e.prepared port).status = .closed := closed
  have none' : (e.prepared port).host = .none := none
  rw [command_open closed', openSocket_bound none' mode, endpoint]
  rfl

theorem owner_opened (e : Engine) (port : UInt16) (host : HostSocket) :
    (e.opened port host).status = .udpReady ∧ (e.opened port host).host = host := ⟨rfl, rfl⟩

theorem owner_addressed (e : Engine) (dest : Endpoint) :
    (e.addressed dest).status = e.status ∧ (e.addressed dest).host = e.host := by
  unfold addressed
  exact ⟨rfl, rfl⟩

theorem word_addressed (e : Engine) (dest : Endpoint) : (e.addressed dest).regs.word Cell.destPort = dest.port :=
  word_setWord_self _ _ (by decide)

theorem Clear.opened (e : Engine) (port : UInt16) (host : HostSocket) : (e.opened port host).Clear := by
  have h := clear_emptied (e.prepared port)
  unfold Engine.opened
  generalize (e.prepared port).emptied = emptied at h ⊢
  refine ⟨?_, ?_, ?_, ?_, ?_, h.rxWrite⟩ <;> dsimp only [enter] <;> rw [word_set_of_apart _ _ (by decide) (by decide)]
  · exact h.rxReceived
  · exact h.rxRead
  · exact h.txRead
  · exact h.txWrite
  · exact h.txFree

theorem Clear.addressed {e : Engine} (h : e.Clear) (dest : Endpoint) : (e.addressed dest).Clear := by
  unfold Engine.addressed
  refine ⟨?_, ?_, ?_, ?_, ?_, h.rxWrite⟩ <;>
    rw [word_setWord_of_apart _ _ (by decide), word_setDestAddr _ _ (by decide)]
  · exact h.rxReceived
  · exact h.rxRead
  · exact h.txRead
  · exact h.txWrite
  · exact h.txFree

/-! ## SEND to a built-in service -/

theorem intake_store_txWrite (e : Engine) (value : UInt8) : (e.store Cell.txWrite value).intake = e.intake := by
  rw [store_txWrite, intake_showFree]
  exact intake_of_regs e (word_set_of_apart _ _ (by decide) (by decide)) (word_set_of_apart _ _ (by decide) (by decide))

theorem intake_store_txWrite_low (e : Engine) (value : UInt8) :
    (e.store (Cell.txWrite + 1) value).intake = e.intake := by
  rw [store_txWrite_low, intake_showFree]
  exact intake_of_regs e (word_set_of_apart _ _ (by decide) (by decide)) (word_set_of_apart _ _ (by decide) (by decide))

/-- Queueing bytes does not concern the receive side. -/
theorem intake_queue (e : Engine) (d : Bytes) : (e.queue d).intake = e.intake := by
  rw [queue, moveTxWrite, intake_store_txWrite_low, intake_store_txWrite, storeTxAll_eq]
  rfl

theorem tidy_queue {e : Engine} (tidy : Tidy e.regs) (d : Bytes) : Tidy (e.queue d).regs := by
  rw [queue, moveTxWrite, storeTxAll_eq]
  refine tidy_store (tidy_store ?_ _ _) _ _
  exact tidy

theorem Clear.tidy {e : Engine} (h : e.Clear) : Tidy e.regs := by
  refine ⟨⟨?_, ?_, ?_⟩, ?_⟩
  · rw [h.txRead]; decide
  · rw [h.txWrite]; decide
  · rw [h.rxRead]; decide
  · rw [h.txFree, pointer, pointer, h.txRead, h.txWrite]; decide

theorem Clear.rxRoom {e : Engine} (h : e.Clear) : e.rxRoom = ringSize - 1 := by
  rw [Engine.rxRoom, Engine.unread, Engine.rxRead, pointer, h.rxRead, h.rxWrite]
  decide

/-- The datagram goes to a built-in service, and that answers it. -/
def Served (cfg : NetConfig) (net : ν) (port : UInt16) (request reply : Bytes) : Prop :=
  port = dhcpServerPort ∧ reply = Dhcp.respond request cfg.bindAddr cfg.serverAddr ∨
    port = ntpPort ∧ Sntp.respond? request cfg.serverAddr (NetHost.clock net) = some reply

theorem Served.answered {cfg : NetConfig} {net : ν} {request reply : Bytes} {e : Engine}
    (h : Served cfg net (e.regs.word Cell.destPort) request reply) :
    e.answered? cfg request net = some reply ∧ (e.sendDatagram cfg request net).2 = net := by
  rw [sendDatagram_net, answered?]
  rcases h with ⟨port, rfl⟩ | ⟨port, reply⟩
  · rw [if_pos port, if_pos (.inl port)]
    exact ⟨rfl, rfl⟩
  · have other : e.regs.word Cell.destPort ≠ dhcpServerPort := by rw [port]; decide
    rw [if_neg other, if_pos port, if_pos (.inr port)]
    exact ⟨reply, rfl⟩

/-- A datagram socket that holds a reply from the first byte of its ring on. -/
structure Holds (e : Engine) (host : HostSocket) (reply : Bytes) : Prop where
  ready : e.status = .udpReady
  host : e.host = host
  received : e.regs.word Cell.rxReceived = UInt16.ofNat reply.length
  rxRead : e.regs.word Cell.rxRead = 0
  bytes : e.rx.copyOut (.ofNat 0) reply.length = reply

/-- **SEND to a built-in service puts the reply at the start of the ring.** -/
theorem send_served {e : Engine} (ready : e.status = .udpReady) (clear : e.Clear) {cfg : NetConfig} {net : ν}
    {request reply : Bytes} (served : Served cfg net (e.regs.word Cell.destPort) request reply) (some : request ≠ [])
    (room : request.length < ringSize) (fits : reply.length < ringSize) :
    ∃ e', (e.queue request).command cfg Command.send.code net = (e', net) ∧ e'.Holds e.host reply := by
  -- All pointers are zero, so exactly the request waits and the whole receive ring but one byte is free.
  have queued := queued_queue e request
  have empty : e.waiting = [] := by
    rw [waiting_eq_nil, Engine.txRead, Engine.txWrite, pointer, pointer, clear.txRead, clear.txWrite]
    exact RingOffset.distance_self _
  have start : RingOffset.distance e.txRead e.txWrite = 0 := waiting_eq_nil.mp empty
  have waiting : (e.queue request).waiting = request := by
    rw [(queued.waiting (by omega)).2, empty, List.nil_append]
  have port : (e.queue request).regs.word Cell.destPort = e.regs.word Cell.destPort :=
    queued.word (by decide) (by decide)
  rw [← port] at served
  obtain ⟨answered, same⟩ := served.answered
  have ready' : (e.queue request).status = .udpReady := queued.status.trans ready
  have run : (e.queue request).command cfg Command.send.code net =
      (((e.queue request).deliver reply).completeSend (e.queue request).txWrite, net) := by
    rw [command_send _ cfg (.inr ready'), send_udpReady _ cfg ready', sendWaiting_some (by rw [waiting]; exact some),
      waiting, answered, same]
    rfl
  have rxWrite : (e.queue request).rxWrite = e.rxWrite := (parts_of_intake (intake_queue e request)).2.1
  have unread : (e.queue request).unread = 0 := by
    rw [← unread_intake, intake_queue, unread_intake, Engine.unread, Engine.rxRead, pointer, clear.rxRead,
      clear.rxWrite]
    decide
  have free : (e.queue request).rxRoom = ringSize - 1 := by
    rw [← room_intake, intake_queue, room_intake, clear.rxRoom]
  have completed : Completed (e.queue request) (.some reply)
      (((e.queue request).deliver reply).completeSend (e.queue request).txWrite) :=
    completed_deliver (tidy_queue clear.tidy request) (.some reply)
  obtain ⟨written, -, counted, -⟩ := completed.taken reply rfl (by omega)
  have read : (e.queue request).regs.word Cell.rxRead = 0 :=
    (congrArg Intake.read (intake_queue e request)).trans clear.rxRead
  have cell (i : Nat) (i_le : i ≤ 1) := completed.cells (Cell.rxRead + i)
    (by simp only [Cell.rxRead, Cell.interrupt]; omega)
    (.inr (by simp only [Cell.rxRead, Cell.txRead]; omega)) (by simp only [Cell.rxRead, Cell.rxReceived]; omega)
  refine ⟨_, run, completed.owner.1.trans ready', completed.owner.2.2.1.trans queued.host, ?_, ?_, ?_⟩
  · rw [← UInt16.toNat_inj, counted, UInt16.toNat_ofNat', unread]
    simp only [ringSize] at fits
    omega
  · exact (congrArg₂ wordOf (cell 0 (by omega)) (cell 1 (by omega))).trans read
  · have whole := written.copyOut_self (Nat.le_of_lt fits)
    rw [rxWrite] at whole
    rw [← clear.rxWrite]
    exact whole

/-! ## RECV and CLOSE -/

theorem command_receive {e : Engine} (ready : e.status = .udpReady) (cfg : NetConfig) (net : ν) :
    e.command cfg Command.receive.code net = (e.showReceived, net) := by
  unfold command
  rw [Command.ofCode?_code, ready]
  rfl

theorem command_close {e : Engine} (ready : e.status = .udpReady) (cfg : NetConfig) (net : ν) :
    e.command cfg Command.close.code net = (e.closed, (e.host.close net).2) := by
  unfold command
  rw [Command.ofCode?_code, ready]
  rfl

end Engine

namespace Bench

variable {cfg : NetConfig} {e e' : Engine} {net net' : ν}

namespace Plays

theorem writePlainWord {cell : Nat} (after : Cell.command < cell) (high : plainCell cell = true)
    (low : plainCell (cell + 1) = true) (w : UInt16) :
    Plays cfg ⟨e, net⟩ (Master.writeWord (cellAddr 0 cell) w) () ⟨{ e with regs := e.regs.setWord cell w }, net⟩ := by
  have before : cell + 2 ≤ 0x100 := by
    simp only [plainCell, bankSize, Bool.and_eq_true, decide_eq_true_eq] at low
    omega
  rw [← Engine.store_word _ high low]
  exact writeWord after before w

/-- What has been received is found at the first look, however long the wait may be. -/
theorem awaitReceived {size : UInt16} (shown : e.regs.word Cell.rxReceived = size) (some : size ≠ 0) (waits : Nat) :
    Plays cfg ⟨e, net⟩ (Bench.awaitReceived 0 waits) (.some size) ⟨e, net⟩ := by
  have look : Plays cfg ⟨e, net⟩ (Master.readWord (cellAddr 0 Cell.rxReceived)) size ⟨e, net⟩ := by
    rw [← shown, ← Engine.readWord_eq _ (by decide)]
    exact readWord (by decide)
  cases waits with
  | zero | succ =>
    refine look.bind ?_
    rw [if_neg some]
    exact .pure _

end Plays

namespace Completes

/-- Opening asks the host for a socket on the port, and tells what status came of it. -/
theorem openDatagram (closed : e.status = .closed) {port : UInt16}
    (run : (e.prepared port).command cfg Command.openSocket.code net = (e', net')) (idles : e'.Idles net') :
    Completes cfg ⟨e, net⟩ (Bench.openDatagram 0 port)
      (if e'.status.code = Status.udpReady.code then .ok () else .error (.notOpened e'.status.code)) ⟨e', net'⟩ := by
  have mode : Plays cfg ⟨e, net⟩ (Master.writeByte (cellAddr 0 Cell.mode) Protocol.udp.code) ()
      ⟨{ e with regs := e.regs.set Cell.mode Protocol.udp.code }, net⟩ := by
    refine .writeCell (by decide) ?_ (.inl closed)
    rw [Engine.writeRegister, if_neg (by decide), store_plain _ (by decide)]
    rfl
  have source : Plays cfg ⟨{ e with regs := e.regs.set Cell.mode Protocol.udp.code }, net⟩
      (Master.writeWord (cellAddr 0 Cell.sourcePort) port) () ⟨e.prepared port, net⟩ :=
    .writePlainWord (by decide) (by decide) (by decide) port
  have status : Plays cfg ⟨e', net'⟩ (Master.readByte (cellAddr 0 Cell.status)) e'.status.code ⟨e', net'⟩ :=
    .readCell (by decide)
  exact .bind_bus mode (.bind_bus source ((command run idles).bind (.bind_bus status (.pure _))))

/-- The destination goes into the registers, the request into the ring behind the write position, and that is moved. -/
theorem sendDatagram (clear : e.Clear) {dest : Endpoint} {request : Bytes} (room : request.length < ringSize)
    (run : ((e.addressed dest).queue request).command cfg Command.send.code net = (e', net')) (idles : e'.Idles net') :
    Completes cfg ⟨e, net⟩ (Bench.sendDatagram 0 dest request) () ⟨e', net'⟩ := by
  have ip : Plays cfg ⟨e, net⟩ (Master.write (cellAddr 0 Cell.destAddr) dest.ip.octets) ()
      ⟨{ e with regs := e.regs.setDestAddr dest.ip }, net⟩ := by
    rw [← Engine.storeAll_octets]
    exact .writeCells (by decide) (show Cell.destAddr + 4 ≤ 0x100 by decide) (List.cons_ne_nil _ _)
  have port : Plays cfg ⟨{ e with regs := e.regs.setDestAddr dest.ip }, net⟩
      (Master.writeWord (cellAddr 0 Cell.destPort) dest.port) () ⟨e.addressed dest, net⟩ :=
    .writePlainWord (by decide) (by decide) (by decide) dest.port
  have addressed := clear.addressed dest
  have position : Plays cfg ⟨e.addressed dest, net⟩ (Master.readWord (cellAddr 0 Cell.txWrite)) 0
      ⟨e.addressed dest, net⟩ := by
    rw [← addressed.txWrite, ← Engine.readWord_eq _ (by decide)]
    exact .readWord (by decide)
  have start : (e.addressed dest).txWrite = .ofWord 0 := by
    rw [Engine.txWrite, pointer, addressed.txWrite]
  have stop : ((e.addressed dest).txWrite.advance request.length).toWord = 0 + UInt16.ofNat request.length := by
    have zero : (RingOffset.ofWord 0).advance request.length = .ofNat request.length := by
      rw [RingOffset.advance_ofWord]
      exact congrArg _ (Nat.zero_add _)
    rw [start, zero, RingOffset.toWord, RingOffset.val_ofNat, Nat.mod_eq_of_lt room, UInt16.zero_add]
  have queued : Plays cfg ⟨(e.addressed dest).storeTxAll (.ofWord 0) request, net⟩
      (Master.writeWord (cellAddr 0 Cell.txWrite) (0 + UInt16.ofNat request.length)) ()
      ⟨(e.addressed dest).queue request, net⟩ := by
    rw [Engine.queue, Engine.moveTxWrite, stop, start]
    exact .writeWord (by decide) (by decide) _
  exact .bind_bus ip (.bind_bus port (.bind_bus position (.bind_bus (.storeTx 0 request)
    (.bind_bus queued (command run idles)))))

/-- The reply is read from the start of the ring and acknowledged. -/
theorem receive {host : HostSocket} {reply : Bytes} (holds : e.Holds host reply) (still : e.Idles net)
    (some : reply ≠ []) (small : reply.length < ringSize) (maxSteps : Nat) :
    ∃ e', Completes cfg ⟨e, net⟩ (Bench.receive 0 maxSteps) (.some reply) ⟨e', net⟩ ∧
      e'.status = .udpReady ∧ e'.host = host := by
  let size := UInt16.ofNat reply.length
  have length : size.toNat = reply.length := by
    rw [UInt16.toNat_ofNat']
    simp only [ringSize] at small
    omega
  have positive : size ≠ 0 := by
    intro zero
    rw [zero] at length
    exact some (List.eq_nil_of_length_eq_zero length.symm)
  have position : Plays cfg ⟨e, net⟩ (Master.readWord (cellAddr 0 Cell.rxRead)) 0 ⟨e, net⟩ := by
    rw [← holds.rxRead, ← Engine.readWord_eq _ (by decide)]
    exact .readWord (by decide)
  have data : Plays cfg ⟨e, net⟩ (Bench.loadRx 0 0 size.toNat) reply ⟨e, net⟩ := by
    have bytes : (List.range reply.length).map (fun i => e.rx.get ((RingOffset.ofWord 0).advance i)) = reply := by
      have copied := holds.bytes
      rwa [Ring.copyOut_of_le _ _ (Nat.le_of_lt small)] at copied
    have read : Plays cfg ⟨e, net⟩ (Bench.loadRx 0 0 reply.length) _ ⟨e, net⟩ := .loadRx 0 reply.length
    rwa [bytes, ← length] at read
  let moved := (e.store Cell.rxRead (highByte (0 + size))).store (Cell.rxRead + 1) (lowByte (0 + size))
  have status : moved.status = .udpReady :=
    (Engine.status_store _ _ _).trans ((Engine.status_store _ _ _).trans holds.ready)
  have owner : moved.host = host := (Engine.host_store _ _ _).trans ((Engine.host_store _ _ _).trans holds.host)
  have move : Plays cfg ⟨e, net⟩ (Master.writeWord (cellAddr 0 Cell.rxRead) (0 + size)) () ⟨moved, net⟩ :=
    .writeWord (by decide) (by decide) _
  have idles : moved.showReceived.Idles net :=
    still.of_owner (status.trans holds.ready.symm) (owner.trans holds.host.symm)
  have acknowledged : Completes cfg ⟨moved, net⟩ (Bench.command 0 .receive) () ⟨moved.showReceived, net⟩ :=
    command (Engine.command_receive status cfg net) idles
  refine ⟨moved.showReceived, ?_, status, owner⟩
  exact .bind_bus (.awaitReceived holds.received positive _)
    (.bind_bus position (.bind_bus data (.bind_bus move (acknowledged.bind (.pure _)))))

/-! ## The exchange -/

section

variable (closed : e.status = .closed) (none : e.host = .none) {port : UInt16} (dest : Endpoint) (request : Bytes)

include closed none

/-- **A request to a built-in service is answered**, whatever was in the registers and rings before. -/
theorem exchange_reply {host : HostSocket}
    (answer : HostSocket.openUdp ⟨cfg.bindAddr, cfg.remapPort port⟩ net = (.ok host, net'))
    (idle : ∀ room, host.receiveDatagram room net' = (.ok .idle, net')) {reply : Bytes}
    (served : Engine.Served cfg net' dest.port request reply) (some : request ≠ []) (room : request.length < ringSize)
    (reply_some : reply ≠ []) (reply_room : reply.length < ringSize) (maxSteps : Nat) :
    ∃ s', Completes cfg ⟨e, net⟩ (Bench.exchange port dest request maxSteps) (.ok (reply.drop receiveHeaderSize)) s' := by
  have owned {e : Engine} (ready : e.status = .udpReady) (same : e.host = host) : e.Idles net' :=
    .inr ⟨ready, same ▸ idle⟩
  have run := Engine.open_prepared closed none port cfg net
  rw [answer] at run
  dsimp only at run
  obtain ⟨ready, held⟩ := Engine.owner_opened e port host
  have opening := openDatagram closed run (owned ready held)
  rw [ready, if_pos rfl] at opening
  have clear := Engine.Clear.opened e port host
  generalize e.opened port host = opened at ready held opening clear
  obtain ⟨status, owner⟩ := opened.owner_addressed dest
  rw [← opened.word_addressed dest] at served
  obtain ⟨sent, run', holds⟩ :=
    Engine.send_served (status.trans ready) (clear.addressed dest) served some room reply_room
  have idles : sent.Idles net' := owned holds.ready (holds.host.trans (owner.trans held))
  have sending := sendDatagram clear room run' idles
  obtain ⟨received, receiving, open', -⟩ := receive holds idles reply_some reply_room maxSteps
  have closing : Completes cfg ⟨received, net'⟩ (Bench.command 0 .close) ()
      ⟨received.closed, (received.host.close net').2⟩ :=
    command (Engine.command_close open' cfg net') (.inl rfl)
  exact ⟨_, opening.bind (sending.bind (receiving.bind (closing.bind (.pure _))))⟩

/-- **If the host refuses the socket**, the demo ends with the status of a closed socket. -/
theorem exchange_refused {refusal : HostError}
    (answer : HostSocket.openUdp ⟨cfg.bindAddr, cfg.remapPort port⟩ net = (.error refusal, net')) (maxSteps : Nat) :
    ∃ s', Completes cfg ⟨e, net⟩ (Bench.exchange port dest request maxSteps)
      (.error (.notOpened Status.closed.code)) s' := by
  have run := Engine.open_prepared closed none port cfg net
  rw [answer] at run
  dsimp only at run
  have status : (e.prepared port).emptied.status = .closed := (Engine.status_emptied _).trans closed
  have opening := openDatagram closed run (.inl status)
  rw [status] at opening
  exact ⟨_, opening.bind (.pure _)⟩

end

end Completes

end Bench

end EtherChip

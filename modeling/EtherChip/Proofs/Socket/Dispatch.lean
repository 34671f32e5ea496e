import EtherChip.Proofs.Socket.Promise

/-!
# Where SEND takes a datagram

SEND on a datagram socket takes the waiting bytes to one of three places: to the DHCP service or to the
time service, which answer into the receive ring without any call to the host, or to the host in one
call, whose answer does not matter. The port in the registers decides which; only the endpoint that the
host is given has the remapped port (`RemapsTo`). Whichever it is, the transmit ring is empty afterwards
and SEND is reported complete, and nothing else has changed but what taking in a reply changes
(`Completed`).
-/
namespace EtherChip

/-- The host port that pairs of ports give for a port: that of the first pair for it, and the port itself
if there is none. -/
def RemapsTo (pairs : List (UInt16 × UInt16)) (port mapped : UInt16) : Prop :=
  (∃ before later, pairs = before ++ (port, mapped) :: later ∧ ∀ pair ∈ before, pair.1 ≠ port) ∨
    (∀ pair ∈ pairs, pair.1 ≠ port) ∧ mapped = port

theorem NetConfig.remapsTo_remapPort (cfg : NetConfig) (port : UInt16) :
    RemapsTo cfg.portRemap port (cfg.remapPort port) := by
  unfold remapPort
  cases found : cfg.portRemap.find? fun pair => pair.1 == port with
  | none =>
    rw [List.find?_eq_none] at found
    exact .inr ⟨by simpa using found, rfl⟩
  | some pair =>
    obtain ⟨same, before, later, split, none⟩ := List.find?_eq_some_iff_append.mp found
    obtain rfl : pair.1 = port := by simpa using same
    exact .inl ⟨before, later, split, by simpa using none⟩

/-- The time service answers whole packets only. -/
theorem Sntp.isSome_respond? (request : Bytes) (server : Ipv4) (unixSeconds : Nat) :
    (respond? request server unixSeconds).isSome ↔ request.length = packetSize := by
  unfold respond?
  split <;> simp [*]

namespace Engine

open RegisterBank RingOffset

/-! ## Cells that a completed SEND and a delivery touch -/

theorem get_completeSend (e : Engine) (position : RingOffset) {cell : Nat} (interrupt : cell ≠ Cell.interrupt)
    (pointers : cell < Cell.txFree ∨ Cell.txRead + 1 < cell) :
    (e.completeSend position).regs.get cell = e.regs.get cell := by
  have apart {word : Nat} (lower : Cell.txFree ≤ word) (upper : word ≤ Cell.txRead) :
      cell ≠ word ∧ cell ≠ word + 1 := by
    omega
  dsimp only [completeSend, showFree, raise]
  rw [get_set_of_ne _ _ interrupt, get_setWord_of_ne _ _ (apart (by decide) (by decide)).1
    (apart (by decide) (by decide)).2, get_setWord_of_ne _ _ (apart (by decide) (by decide)).1
    (apart (by decide) (by decide)).2]

theorem interrupt_completeSend (e : Engine) (position : RingOffset) :
    (e.completeSend position).regs.get Cell.interrupt = e.regs.get Cell.interrupt ||| Interrupt.sendOk := by
  dsimp only [completeSend, showFree, raise]
  rw [get_set_self _ _ (by decide), get_setWord_of_ne _ _ (by decide) (by decide),
    get_setWord_of_ne _ _ (by decide) (by decide)]

/-- The words of the transmit ring once a SEND is complete up to the write position. -/
theorem words_completeSend {e : Engine} (tidy : Tidy e.regs) :
    let e' := e.completeSend e.txWrite
    e'.regs.word Cell.txRead = e.regs.word Cell.txWrite ∧ e'.regs.word Cell.txWrite = e.regs.word Cell.txWrite ∧
      e'.regs.word Cell.txFree = UInt16.ofNat ringSize := by
  have inside : e.txWrite.toWord = e.regs.word Cell.txWrite := by
    apply UInt16.toNat_inj.mp
    rw [toNat_toWord]
    exact Nat.mod_eq_of_lt tidy.txWrite
  dsimp only [completeSend, showFree, raise]
  have read : (e.regs.setWord Cell.txRead e.txWrite.toWord).word Cell.txRead = e.txWrite.toWord :=
    word_setWord_self _ _ (by decide)
  have write : (e.regs.setWord Cell.txRead e.txWrite.toWord).word Cell.txWrite = e.regs.word Cell.txWrite :=
    word_setWord_of_apart _ _ (by decide)
  have empty : distance ((e.regs.setWord Cell.txRead e.txWrite.toWord).pointer Cell.txRead)
      ((e.regs.setWord Cell.txRead e.txWrite.toWord).pointer Cell.txWrite) = 0 := by
    rw [pointer, pointer, read, write, inside]
    exact distance_self _
  refine ⟨?_, ?_, ?_⟩ <;> rw [word_set_of_apart _ _ (by decide) (by decide)]
  · rw [word_setWord_of_apart _ _ (by decide), read, inside]
  · rw [word_setWord_of_apart _ _ (by decide), write]
  · rw [word_setWord_self _ _ (by decide)]
    simp only [Engine.txRead, Engine.txWrite] at empty ⊢
    rw [empty]
    rfl

theorem get_appended (e : Engine) (data : Bytes) {cell : Nat} (interrupt : cell ≠ Cell.interrupt)
    (received : cell ≠ Cell.rxReceived ∧ cell ≠ Cell.rxReceived + 1) :
    (e.appended data).regs.get cell = e.regs.get cell := by
  dsimp only [appended, showReceived, raise]
  rw [get_set_of_ne _ _ interrupt, get_setWord_of_ne _ _ received.1 received.2]

theorem interrupt_appended (e : Engine) (data : Bytes) :
    (e.appended data).regs.get Cell.interrupt = e.regs.get Cell.interrupt ||| Interrupt.received := by
  dsimp only [appended, showReceived, raise]
  rw [get_set_self _ _ (by decide), get_setWord_of_ne _ _ (by decide) (by decide)]

/-! ## What SEND leaves -/

/-- A socket after a SEND of all waiting bytes, into which a reply has been taken if there is one and it
fits. -/
structure Completed (e : Engine) (reply : Option Bytes) (e' : Engine) : Prop where
  drained : e'.regs.word Cell.txRead = e'.regs.word Cell.txWrite
  free : e'.regs.word Cell.txFree = UInt16.ofNat ringSize
  sendOk : e'.SendOk
  tx : e'.tx = e.tx
  owner : e'.status = e.status ∧ e'.protocol = e.protocol ∧ e'.host = e.host ∧ e'.sendEnd = e.sendEnd
  cells : ∀ cell, cell ≠ Cell.interrupt → cell < Cell.txFree ∨ Cell.txRead + 1 < cell →
    cell ≠ Cell.rxReceived ∧ cell ≠ Cell.rxReceived + 1 → e'.regs.get cell = e.regs.get cell
  /-- Without a reply, and with one that does not fit, nothing of the receive side changes. -/
  dropped : (∀ data, reply = some data → e.rxRoom < data.length) →
    e'.rx = e.rx ∧ e'.rxWrite = e.rxWrite ∧ e'.regs.word Cell.rxReceived = e.regs.word Cell.rxReceived ∧
    e'.regs.get Cell.interrupt = e.regs.get Cell.interrupt ||| Interrupt.sendOk
  /-- A reply that fits stands behind the unread bytes, is counted, and is announced. -/
  taken : ∀ data, reply = some data → data.length ≤ e.rxRoom →
    Ring.Written e.rx e'.rx e.rxWrite data ∧ e'.rxWrite = e.rxWrite.advance data.length ∧
    (e'.regs.word Cell.rxReceived).toNat = e.unread + data.length ∧
    e'.regs.get Cell.interrupt = e.regs.get Cell.interrupt ||| Interrupt.received ||| Interrupt.sendOk

theorem owner_completeSend (e : Engine) (position : RingOffset) :
    let e' := e.completeSend position
    e'.status = e.status ∧ e'.protocol = e.protocol ∧ e'.host = e.host ∧ e'.sendEnd = e.sendEnd :=
  ⟨status_completeSend e position, by dsimp only [completeSend, showFree, raise], host_completeSend e position,
    sendEnd_completeSend e position⟩

theorem tx_completeSend (e : Engine) (position : RingOffset) : (e.completeSend position).tx = e.tx := by
  dsimp only [completeSend, showFree, raise]

/-- The receive side, part by part. -/
theorem parts_of_intake {e : Engine} {i : Intake} (same : e.intake = i) :
    e.rx = i.ring ∧ e.rxWrite = i.write ∧ e.regs.word Cell.rxReceived = i.shown :=
  same ▸ ⟨rfl, rfl, rfl⟩

theorem completed_of_dropped {e : Engine} (tidy : Tidy e.regs) {reply : Option Bytes}
    (large : ∀ data, reply = some data → e.rxRoom < data.length) :
    Completed e reply (e.completeSend e.txWrite) := by
  obtain ⟨read, write, free⟩ := words_completeSend tidy
  obtain ⟨rx, rxWrite, shown⟩ := parts_of_intake (intake_completeSend e e.txWrite)
  exact {
    drained := read.trans write.symm
    free := free
    sendOk := sendOk_completeSend e e.txWrite
    tx := tx_completeSend e e.txWrite
    owner := owner_completeSend e e.txWrite
    cells := fun cell interrupt pointers _ => get_completeSend e e.txWrite interrupt pointers
    dropped := fun _ => ⟨rx, rxWrite, shown, interrupt_completeSend e e.txWrite⟩
    taken := fun data some fits => absurd (large data some) (Nat.not_lt.mpr fits) }

/-- What a socket that has taken a reply in keeps. -/
theorem kept_appended (e : Engine) (data : Bytes) :
    (e.appended data).tx = e.tx ∧ (e.appended data).status = e.status ∧ (e.appended data).protocol = e.protocol ∧
    (e.appended data).host = e.host ∧ (e.appended data).sendEnd = e.sendEnd ∧
    (e.appended data).txWrite = e.txWrite := by
  refine ⟨rfl, rfl, rfl, rfl, rfl, ?_⟩
  rw [Engine.txWrite, Engine.txWrite, pointer, pointer, word, word, get_appended e data (by decide) (by decide),
    get_appended e data (by decide) (by decide)]

/-- The size that is shown counts the bytes that have been taken in. -/
theorem received_appended {e : Engine} {data : Bytes} (fits : data.length ≤ e.rxRoom) :
    ((e.appended data).regs.word Cell.rxReceived).toNat = e.unread + data.length := by
  have short := distance_lt e.rxRead e.rxWrite
  rw [rxRoom, unread] at fits
  have small : data.length ≤ ringSize := by omega
  have stop := Ring.copyIn_snd e.rx e.rxWrite small
  obtain ⟨-, -, shown⟩ := parts_of_intake (intake_appended e data)
  have counted : (e.intake.append data).shown = UInt16.ofNat (distance e.rxRead (e.rx.copyIn e.rxWrite data).2) := rfl
  rw [shown, counted, toNat_ofNat_distance, stop, distance_advance_right, unread]
  exact Nat.mod_eq_of_lt (by omega)

theorem completed_of_taken {e : Engine} (tidy : Tidy e.regs) {data : Bytes} (fits : data.length ≤ e.rxRoom) :
    Completed e (some data) ((e.appended data).completeSend e.txWrite) := by
  obtain ⟨tx, status, protocol, host, sendEnd, txWrite⟩ := kept_appended e data
  obtain ⟨read, write, free⟩ := words_completeSend ((Change.delivered data fits).tidy tidy)
  obtain ⟨status', protocol', host', sendEnd'⟩ := owner_completeSend (e.appended data) e.txWrite
  rw [txWrite] at read write free
  have small : data.length ≤ ringSize := by
    rw [rxRoom] at fits
    omega
  have stop := Ring.copyIn_snd e.rx e.rxWrite small
  have side := intake_completeSend (e.appended data) e.txWrite
  obtain ⟨rx, rxWrite, -⟩ := parts_of_intake (side.trans (intake_appended e data))
  obtain ⟨-, -, shown⟩ := parts_of_intake side
  exact {
    drained := read.trans write.symm
    free := free
    sendOk := sendOk_completeSend (e.appended data) e.txWrite
    tx := (tx_completeSend (e.appended data) e.txWrite).trans tx
    owner := ⟨status'.trans status, protocol'.trans protocol, host'.trans host, sendEnd'.trans sendEnd⟩
    cells := fun cell interrupt pointers received =>
      (get_completeSend _ e.txWrite interrupt pointers).trans (get_appended e data interrupt received)
    dropped := fun large => absurd (large data rfl) (Nat.not_lt.mpr fits)
    taken := by
      rintro _ ⟨⟩ -
      refine ⟨?_, rxWrite.trans stop, ?_, ?_⟩
      · rw [rx]
        exact Ring.written_copyIn e.rx e.rxWrite small
      · rw [shown]
        exact received_appended fits
      · rw [interrupt_completeSend, interrupt_appended] }

/-- **What SEND leaves, by the reply that it brings in.** -/
theorem completed_deliver {e : Engine} (tidy : Tidy e.regs) (reply : Option Bytes) :
    Completed e reply (((reply.map e.deliver).getD e).completeSend e.txWrite) := by
  cases reply with
  | none => exact completed_of_dropped tidy nofun
  | some data =>
    show Completed e (some data) ((e.deliver data).completeSend e.txWrite)
    rw [deliver_eq]
    split
    · exact completed_of_taken tidy ‹_›
    · refine completed_of_dropped tidy ?_
      rintro _ ⟨⟩
      omega

/-! ## SEND -/

variable {ν : Type} [NetHost ν]

/-- The waiting bytes, one by one. -/
theorem waiting_eq (e : Engine) :
    e.waiting = (List.range (distance e.txRead e.txWrite)).map fun i => e.tx.get (e.txRead.advance i) := by
  rw [waiting, Ring.copyOut_of_le _ _ (Nat.le_of_lt (distance_lt _ _))]

theorem waiting_eq_nil {e : Engine} : e.waiting = [] ↔ distance e.txRead e.txWrite = 0 := by
  simp [waiting_eq]

theorem sendWaiting_nothing {e : Engine} (nothing : e.waiting = []) (cfg : NetConfig) (net : ν) :
    e.sendWaiting cfg net = (e.completeSend e.txWrite, net) := by
  have len := waiting_eq_nil.mp nothing
  have stop := advance_distance e.txRead e.txWrite
  rw [len] at stop
  unfold sendWaiting
  dsimp only
  rw [if_pos len, len, stop]
  rfl

theorem sendWaiting_some {e : Engine} (bytes : e.waiting ≠ []) (cfg : NetConfig) (net : ν) :
    e.sendWaiting cfg net =
      (((e.answered? cfg e.waiting net).map e.deliver).getD e |>.completeSend e.txWrite,
        (e.sendDatagram cfg e.waiting net).2) := by
  rw [← sendDatagram_eq]
  unfold sendWaiting
  dsimp only
  rw [if_neg (mt waiting_eq_nil.mpr bytes), advance_distance]
  rfl

/-- Built-in services are asked without any call to the host. -/
theorem sendDatagram_net (e : Engine) (cfg : NetConfig) (data : Bytes) (net : ν) :
    (e.sendDatagram cfg data net).2 =
      if e.regs.word Cell.destPort = dhcpServerPort ∨ e.regs.word Cell.destPort = ntpPort then net
      else (e.host.sendDatagram data (e.destEndpoint cfg) net).2 := by
  unfold sendDatagram
  by_cases dhcp : e.regs.word Cell.destPort = dhcpServerPort
  · rw [if_pos dhcp, if_pos (.inl dhcp)]
    rfl
  by_cases ntp : e.regs.word Cell.destPort = ntpPort
  · rw [if_neg dhcp, if_pos ntp, if_pos (.inr ntp), get_run]
    cases Sntp.respond? data cfg.serverAddr (NetHost.clock net) <;> rfl
  · rw [if_neg dhcp, if_neg ntp, if_neg (not_or.mpr ⟨dhcp, ntp⟩)]
    rfl

theorem sendDatagram_host (id : SocketId) (data : Bytes) (dest : Endpoint) (net : ν) :
    ((HostSocket.datagram id).sendDatagram data dest net).2 = (NetHost.sendTo id data dest net).2 := by
  rw [HostSocket.sendDatagram, bind_run]
  cases (NetHost.sendTo id data dest net).1 <;> rfl

/-- **Dispatch.** After every history with any host, on any host: SEND on a datagram socket takes the
bytes between the transmit pointers to exactly one place. Without bytes, and to the ports of the built-in
services, no call is made to the host; to any other port one call is made, with the remapped port. In
every case, whatever the host answers and whether or not a reply fits, the SEND is complete and nothing
has changed but what taking in the reply changes. -/
theorem send_dispatches {e : Engine} (reachable : Reachable e) (ready : e.status = .udpReady) (cfg : NetConfig)
    (net : ν) :
    let w := e.waiting
    let port := e.regs.word Cell.destPort
    let sent := e.command cfg Command.send.code net
    w = (List.range (distance e.txRead e.txWrite)).map (fun i => e.tx.get (e.txRead.advance i)) ∧
    (w = [] → sent.2 = net ∧ Completed e none sent.1) ∧
    (w ≠ [] → port = dhcpServerPort →
      sent.2 = net ∧ Completed e (some (Dhcp.respond w cfg.bindAddr cfg.serverAddr)) sent.1) ∧
    (w ≠ [] → port = ntpPort →
      let reply := Sntp.respond? w cfg.serverAddr (NetHost.clock net)
      sent.2 = net ∧ Completed e reply sent.1 ∧ (reply.isSome ↔ w.length = 48)) ∧
    (w ≠ [] → port ≠ dhcpServerPort → port ≠ ntpPort →
      ∃ id mapped, e.host = .datagram id ∧ RemapsTo cfg.portRemap port mapped ∧
        sent.2 = (NetHost.sendTo id w ⟨e.regs.destAddr, mapped⟩ net).2 ∧ Completed e none sent.1) := by
  intro w port sent
  have run : sent = e.sendWaiting cfg net := by
    show e.command cfg Command.send.code net = _
    rw [command_send e cfg (.inr ready), send_udpReady e cfg ready]
  have tidy : Tidy e.regs := by
    obtain ⟨_, _, events, rfl⟩ := reachable
    have live : (powerOn.trace events).status ≠ .closed ∨ False := .inl (by rw [ready]; decide)
    exact tidy_trace (fun _ => tidy_powerOn) events (fun _ _ _ => id) live
  refine ⟨waiting_eq e, fun nothing => ?_, fun bytes dhcp => ?_, fun bytes ntp => ?_, fun bytes dhcp ntp => ?_⟩
  · rw [run, sendWaiting_nothing nothing]
    exact ⟨rfl, completed_deliver tidy none⟩
  · have answered : e.answered? cfg w net = some (Dhcp.respond w cfg.bindAddr cfg.serverAddr) := if_pos dhcp
    rw [run, sendWaiting_some bytes, sendDatagram_net, if_pos (.inl dhcp)]
    exact ⟨rfl, answered ▸ completed_deliver tidy _⟩
  · have other : port ≠ dhcpServerPort := ntp ▸ by decide
    have answered : e.answered? cfg w net = Sntp.respond? w cfg.serverAddr (NetHost.clock net) :=
      (if_neg other).trans (if_pos ntp)
    rw [run, sendWaiting_some bytes, sendDatagram_net, if_pos (.inr ntp)]
    exact ⟨rfl, answered ▸ completed_deliver tidy _, Sntp.isSome_respond? _ _ _⟩
  · have answered : e.answered? cfg w net = none := (if_neg dhcp).trans (if_neg ntp)
    obtain ⟨id, host⟩ := reachable.staged.datagram ready
    rw [run, sendWaiting_some bytes, sendDatagram_net, if_neg (not_or.mpr ⟨dhcp, ntp⟩), host, sendDatagram_host]
    exact ⟨id, cfg.remapPort port, rfl, cfg.remapsTo_remapPort port, rfl, answered ▸ completed_deliver tidy none⟩

/-- A datagram socket that is about to send two bytes to the DHCP service. -/
def requestingSocket : List (Event × Network) :=
  [(.write {} Cell.mode Protocol.udp.code, {}), (.command {} Command.openSocket.code, {}),
    (.write {} (Cell.destPort + 1) 67, {}), (.storeTx (.ofNat 0) 1, {}), (.storeTx (.ofNat 1) 2, {}),
    (.write {} (Cell.txWrite + 1) 2, {})]

theorem send_dispatches_request :
    let e := powerOn.trace requestingSocket
    let sent := e.command {} Command.send.code ({} : Network)
    e.status = .udpReady ∧ e.waiting = [1, 2] ∧ sent.2 = {} ∧
      (sent.1.regs.word Cell.rxReceived).toNat = 308 ∧
      sent.1.regs.word Cell.txRead = 2 ∧ sent.1.regs.word Cell.destPort = 67 := by
  intro e sent
  have ready : e.status = .udpReady := by decide +kernel
  have waiting : e.waiting = [1, 2] := by decide +kernel
  obtain ⟨-, -, dhcp, -⟩ := send_dispatches ⟨Network, inferInstance, requestingSocket, rfl⟩ ready {} ({} : Network)
  obtain ⟨host, completed⟩ := dhcp (by rw [waiting]; decide) (by decide +kernel)
  obtain ⟨-, -, counted, -⟩ := completed.taken _ rfl (by decide +kernel)
  have counted : (sent.1.regs.word Cell.rxReceived).toNat = 308 := by
    rw [counted]
    decide +kernel
  have drained : sent.1.regs.word Cell.txRead = 2 := by
    rw [completed.drained]
    decide +kernel
  have port : sent.1.regs.word Cell.destPort = 67 := by decide +kernel
  exact ⟨ready, waiting, host, counted, drained, port⟩

end Engine

end EtherChip

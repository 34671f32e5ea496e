import EtherChip.Bench.Session
import EtherChip.Proofs.Bench.Exchange
import EtherChip.Proofs.Bench.Replies
import EtherChip.Proofs.Host.FirstDatagram
import EtherChip.Proofs.Memory.GiveBack
import EtherChip.Proofs.SaveState.Format

/-!
# The demos from every saved state

Whatever a save file holds, the chip that takes it over is between transactions with all sockets closed
(`startChip_run`). From there the two demos that use the network come to one result, which depends on the
configuration and the clock alone: the lease or the time that the service answers with, or the refusal of
a host on which the address cannot be bound.
-/
namespace EtherChip.Bench

open AddressSpace

variable {ν : Type} [NetHost ν]

/-! ## The demos -/

namespace Completes

variable {cfg : NetConfig} {e : Engine} {net net' : ν} (closed : e.status = .closed) (none : e.host = .none)
  {host : HostSocket}

/-- The hardware address is stored in registers that no socket looks at. -/
theorem writeAddress : Plays cfg ⟨e, net⟩ (Master.write 0x0009 hardwareAddr) () ⟨e, net⟩ :=
  .writeCommon (by decide) (by decide) (by decide)

include closed none

theorem runDhcp_reply
    (answer : HostSocket.openUdp ⟨cfg.bindAddr, cfg.remapPort dhcpClientPort⟩ net = (.ok host, net'))
    (idle : ∀ room, host.receiveDatagram room net' = (.ok .idle, net')) (maxSteps : Nat) :
    ∃ s', Completes cfg ⟨e, net⟩ (runDhcp maxSteps)
      (.ok ("DHCP OFFER: lease " ++ cfg.bindAddr.text ++ " from " ++ cfg.serverAddr.text ++ "\n")) s' := by
  have length : (Dhcp.respond discoverRequest cfg.bindAddr cfg.serverAddr).length =
      receiveHeaderSize + Dhcp.messageSize := by
    rw [Dhcp.respond, List.length_append, length_receiveHeader, Dhcp.length_replyMessage]
  have some : discoverRequest ≠ [] := List.ne_nil_of_length_pos (by rw [length_discoverRequest]; decide)
  have room : discoverRequest.length < ringSize := by rw [length_discoverRequest]; decide
  obtain ⟨s', exchanged⟩ := exchange_reply closed none ⟨Ipv4.broadcast, dhcpServerPort⟩ discoverRequest answer idle
    (.inl ⟨rfl, rfl⟩) some room (List.ne_nil_of_length_pos (by rw [length]; decide)) (by rw [length]; decide) maxSteps
  refine ⟨s', bind_bus writeAddress (exchanged.bind ?_)⟩
  rw [← describeLease_respond]
  exact .pure _

theorem runTime_reply
    (answer : HostSocket.openUdp ⟨cfg.bindAddr, cfg.remapPort timePort⟩ net = (.ok host, net'))
    (idle : ∀ room, host.receiveDatagram room net' = (.ok .idle, net')) (maxSteps : Nat) :
    ∃ s', Completes cfg ⟨e, net⟩ (runTime maxSteps) (.ok (timeLine (Sntp.timestampSeconds (NetHost.clock net')))) s' := by
  obtain ⟨reply, answered, length, described⟩ := respond?_timeRequest cfg.serverAddr (NetHost.clock net')
  have some : reply ≠ [] := List.ne_nil_of_length_pos (by rw [length]; decide)
  obtain ⟨s', exchanged⟩ := exchange_reply closed none ⟨cfg.serverAddr, ntpPort⟩ timeRequest answer idle
    (.inr ⟨rfl, answered⟩) (by decide) (by decide) some (by rw [length]; decide) maxSteps
  refine ⟨s', bind_get fun c on => ?_⟩
  have server : c.config.serverAddr = cfg.serverAddr := congrArg _ on.shown.config
  rw [server, ← described]
  exact exchanged.bind (.pure _)

/-- A demo for which the host has no socket. -/
theorem run_refused {demo : Demo} (network : demo = .dhcp ∨ demo = .ntp)
    (refused : ∀ port, ∃ refusal net',
      HostSocket.openUdp ⟨cfg.bindAddr, cfg.remapPort port⟩ net = (.error refusal, net'))
    (maxSteps : Nat) :
    ∃ s', Completes cfg ⟨e, net⟩ (demo.run maxSteps) (.error (.notOpened Status.closed.code)) s' := by
  rcases network with rfl | rfl
  · obtain ⟨refusal, net', answer⟩ := refused dhcpClientPort
    obtain ⟨s', exchanged⟩ :=
      exchange_refused closed none ⟨Ipv4.broadcast, dhcpServerPort⟩ discoverRequest answer maxSteps
    exact ⟨s', bind_bus writeAddress (exchanged.bind (.pure _))⟩
  · obtain ⟨refusal, net', answer⟩ := refused timePort
    obtain ⟨s', exchanged⟩ := exchange_refused closed none ⟨cfg.serverAddr, ntpPort⟩ timeRequest answer maxSteps
    refine ⟨s', bind_get fun c on => ?_⟩
    have server : c.config.serverAddr = cfg.serverAddr := congrArg _ on.shown.config
    rw [server]
    exact exchanged.bind (.pure _)

end Completes

/-! ## The chip at the start -/

/-- A chip between transactions with all sockets closed. -/
structure Rested (c : Chip) : Prop where
  rest : c.AtRest
  closed : ∀ n, (c.memory.sockets.get n).status = .closed
  none : ∀ n, (c.memory.sockets.get n).host = .none

theorem Rested.on {c : Chip} (h : Rested c) (net : ν) : Scene.On ⟨c.memory.sockets.get 0, net⟩ c.config c where
  rest := h.rest
  shown := ⟨rfl, rfl, fun n _ => h.closed n, .inl (h.closed 0)⟩

theorem rested_powerOn (model : ChipModel) (config : NetConfig) : Rested (Chip.powerOn model config) where
  rest := Chip.atRest_powerOn model config
  closed n := by
    match n with
    | 0 | 1 | 2 | 3 => rfl
  none n := by
    match n with
    | 0 | 1 | 2 | 3 => rfl

/-- A chip that takes over a saved state is at rest whatever the state is, and the host is left alone. -/
theorem Rested.load {c : Chip} (h : Rested c) (state : SaveState) (net : ν) :
    ∃ c', c.load state net = (c', net) ∧ Rested c' ∧ c'.model = c.model ∧ c'.config = c.config := by
  -- Taking over a state gives the host sockets of all engines back, and here there are none.
  have nothing : c.memory.giveBack net = net := by
    rw [giveBack, c.memory.held_eq_nil h.none]
    rfl
  have loaded := c.memory.load_run state net
  rw [nothing] at loaded
  have idle : c.decoder.reset = .idle c.model := by
    rw [h.rest.decoder]
    cases c.model <;> rfl
  have fresh (n : Fin socketCount) : ((Vector.ofFn fun n : Fin socketCount =>
      Engine.ofState (state.sockets[n.val]?.getD {})).get n) = Engine.ofState (state.sockets[n.val]?.getD {}) :=
    Vector.getElem_ofFn n.isLt
  have run : c.load state net =
      ({ c with sampler := {}, decoder := c.decoder.reset, wasSelected := false,
                memory := (c.memory.load state net).1 }, (c.memory.load state net).2) := rfl
  rw [run, loaded]
  refine ⟨_, rfl, ⟨⟨⟨rfl, rfl, rfl, idle⟩, rfl, rfl, rfl⟩, fun n => ?_, fun n => ?_⟩, rfl, rfl⟩
  · exact congrArg Engine.status (fresh n)
  · exact congrArg Engine.host (fresh n)

/-- If a saved state is asked for, there is a file of one for the model. -/
def Options.Restores (o : Options) (z : Compression) (storage : Storage) : Prop :=
  ∀ path, o.loadState = some path →
    ∃ file state, storage.read path = .ok file ∧ SaveFile.decode z file o.model = .ok state

/-- The file that a state is encoded to is one. -/
theorem Options.restores_encode {o : Options} {z : Compression} (inverts : z.Inverts) {storage : Storage} {path : String}
    {state : SaveState} (fits : state.Fits) (asked : o.loadState = some path)
    (found : storage.read path = .ok (SaveFile.encode z state o.model)) : o.Restores z storage := by
  intro path' asked'
  obtain rfl := Option.some.inj (asked.symm.trans asked')
  exact ⟨_, state, found, SaveFile.decode_encode inverts fits⟩

theorem Options.startChip_run {o : Options} {z : Compression} {storage : Storage} (restores : o.Restores z storage)
    (net : ν) : ∃ c, o.startChip z storage net = (.ok c, net) ∧ Rested c ∧ c.config = o.config := by
  have fresh := rested_powerOn o.model o.config
  unfold Options.startChip
  cases asked : o.loadState with
  | none => exact ⟨_, rfl, fresh, rfl⟩
  | some path =>
    obtain ⟨file, state, read, decoded⟩ := restores path asked
    obtain ⟨c, loaded, rested, -, config⟩ := fresh.load state net
    have found : (storage.read path >>= fun file => SaveFile.decode z file (Chip.powerOn o.model o.config).model) =
        .ok state := by
      rw [read]
      exact decoded
    refine ⟨c, ?_, rested, config⟩
    dsimp only
    rw [Chip.loadFrom, found]
    dsimp only
    rw [EtherChip.bind_run, loaded]
    rfl

/-! ## A run of the bench -/

/-- What is reported by a run with a given patience, if it comes to an end. -/
def Options.report? (o : Options) (z : Compression) (patience : Nat) (storage : Storage) (net : ν) : Option Report :=
  (o.run z patience storage net).map (·.1.1)

/-- What is reported for a demo whose chip can be saved. -/
def reportOf : Except DemoError String → Report
  | .error _ => { exitCode := 1 }
  | .ok output => { exitCode := 0, output := output }

theorem Options.report?_of_completes {o : Options} {z : Compression} {storage : Storage} (restores : o.Restores z storage)
    (saves : ∀ path, o.saveState = some path → storage.hasRoom path = true) {net : ν} {result : Except DemoError String}
    (completes : ∀ e : Engine, e.status = .closed → e.host = .none →
      ∃ s', Completes o.config ⟨e, net⟩ (o.demo.run o.maxSteps) result s') (patience : Nat) :
    o.report? z patience storage net = some (reportOf result) := by
  obtain ⟨c, started, rested, config⟩ := Options.startChip_run restores net
  have on := rested.on net
  rw [config] at on
  obtain ⟨s', completed⟩ := completes _ (rested.closed 0) (rested.none 0)
  obtain ⟨c', run, -⟩ := completed patience c on
  have ran : ((o.demo.run o.maxSteps).run patience).run c net = some ((result, c'), s'.host) := run
  have start : RunM.ending (o.startChip z storage) net = some (.ok c, net) := congrArg some started
  unfold Options.report? Options.run
  rw [RunM.bind_of_some start]
  dsimp only
  rw [RunM.bind_of_some ran]
  cases result with
  | error e => rfl
  | ok output =>
    dsimp only
    cases asked : o.saveState with
    | none => rfl
    | some path =>
      have saved : c'.saveTo z storage path = .ok _ := if_pos (saves path asked)
      dsimp only
      rw [saved]
      rfl

/-- On a network on which nothing has happened, the demos find a local address. -/
theorem Options.completes_bindable (o : Options) (clock : Int) (bindable : Network.Bindable o.config.bindAddr)
    {e : Engine} (closed : e.status = .closed) (none : e.host = .none) :
    (∃ s', Completes o.config ⟨e, Network.untouched clock⟩ (runDhcp o.maxSteps)
      (.ok ("DHCP OFFER: lease " ++ o.config.bindAddr.text ++ " from " ++ o.config.serverAddr.text ++ "\n")) s') ∧
    ∃ s', Completes o.config ⟨e, Network.untouched clock⟩ (runTime o.maxSteps)
      (.ok (timeLine (Sntp.timestampSeconds clock.toNat))) s' := by
  have clientPort : o.config.remapPort dhcpClientPort = 6968 := rfl
  have port : o.config.remapPort timePort = 8888 := rfl
  constructor
  · have answer := Network.openUdp_bindable clock bindable (show (6968 : UInt16) ≠ 0 by decide)
    rw [← clientPort] at answer
    exact Completes.runDhcp_reply closed none answer (Network.receive_withDatagram clock _) o.maxSteps
  · have answer := Network.openUdp_bindable clock bindable (show (8888 : UInt16) ≠ 0 by decide)
    rw [← port] at answer
    exact Completes.runTime_reply closed none answer (Network.receive_withDatagram clock _) o.maxSteps

/-- They find no other address. -/
theorem Options.completes_foreign (o : Options) (clock : Int) (foreign : ¬Network.Bindable o.config.bindAddr)
    {e : Engine} (closed : e.status = .closed) (none : e.host = .none) (network : o.demo = .dhcp ∨ o.demo = .ntp) :
    ∃ s', Completes o.config ⟨e, Network.untouched clock⟩ (o.demo.run o.maxSteps)
      (.error (.notOpened Status.closed.code)) s' := by
  have refused (port : UInt16) : ∃ refusal net', HostSocket.openUdp ⟨o.config.bindAddr, o.config.remapPort port⟩
      (Network.untouched clock) = (.error refusal, net') :=
    ⟨_, _, Network.openUdp_foreign clock foreign _⟩
  exact Completes.run_refused closed none network refused o.maxSteps

theorem leaseLine (lease : Ipv4) :
    "DHCP OFFER: lease " ++ lease.text ++ " from " ++ Ipv4.localhost.text ++ "\n" =
      "DHCP OFFER: lease " ++ lease.text ++ " from 127.0.0.1\n" := by
  have server : " from " ++ (Ipv4.localhost.text ++ "\n") = " from 127.0.0.1\n" := by decide +kernel
  rw [String.append_assoc, String.append_assoc, server]

/-- **The demos work from every saved state.** Whatever the options and the clock are, and whatever a saved
state of the model holds: the run comes to an end with any patience, and if sockets can be bound at the configured address, the
DHCP demo prints the offer of that address, and the time demo the clock as seconds from 1900 modulo 2^32,
where times before 1970 count as its start; else both print nothing and fail. -/
theorem demos_answered (o : Options) (z : Compression) (patience : Nat) (storage : Storage) (clock : Int)
    (restores : o.Restores z storage)
    (saves : ∀ path, o.saveState = some path → storage.hasRoom path = true) :
    let bind := o.bind.getD ⟨127, 0, 0, 100⟩
    let report := o.report? z patience storage ({ clock := clock } : Network)
    let seconds := (clock.toNat + 2208988800) % 4294967296
    (bind.a = 127 ∨ bind = ⟨0, 0, 0, 0⟩ →
      (o.demo = .dhcp →
        report = some { exitCode := 0, output := "DHCP OFFER: lease " ++ bind.text ++ " from 127.0.0.1\n" }) ∧
      (o.demo = .ntp →
        report = some
          { exitCode := 0
            output := "NTP transmit time: " ++ seconds.repr ++ " (unix " ++ (seconds - 2208988800).repr ++ ")\n" })) ∧
    (¬(bind.a = 127 ∨ bind = ⟨0, 0, 0, 0⟩) →
      o.demo = .dhcp ∨ o.demo = .ntp → report = some { exitCode := 1, output := "" }) := by
  intro bind report seconds
  refine ⟨fun bindable => ⟨fun dhcp => ?_, fun time => ?_⟩, fun foreign network => ?_⟩
  · have completes (e : Engine) (closed : e.status = .closed) (none : e.host = .none) :=
      (o.completes_bindable clock bindable closed none).1
    rw [← Demo.run, ← dhcp] at completes
    have reported := Options.report?_of_completes restores saves completes patience
    exact reported.trans
      (congrArg (fun line : String => some ({ exitCode := 0, output := line } : Report)) (leaseLine bind))
  · have completes (e : Engine) (closed : e.status = .closed) (none : e.host = .none) :=
      (o.completes_bindable clock bindable closed none).2
    rw [← Demo.run, ← time] at completes
    exact Options.report?_of_completes restores saves completes patience
  · have completes (e : Engine) (closed : e.status = .closed) (none : e.host = .none) :=
      o.completes_foreign clock foreign closed none network
    exact Options.report?_of_completes restores saves completes patience

/-- The offer to a chip that takes over two common registers and part of one socket. -/
theorem demos_answered_restored :
    let state : SaveState := ⟨[1, 2], [⟨[2, 9, 0x14], [], [4, 5], 6⟩]⟩
    let storage : Storage := { files := [("chip.sav", SaveFile.encode .stored state .w5500)] }
    let o : Options := { demo := .dhcp, bind := some ⟨127, 0, 0, 5⟩, loadState := some "chip.sav" }
    o.Restores .stored storage ∧
    o.report? .stored 0 storage ({ clock := -5 } : Network) =
      some { exitCode := 0, output := "DHCP OFFER: lease 127.0.0.5 from 127.0.0.1\n" } := by
  intro state storage o
  have fits : state.Fits := by
    refine ⟨by decide, by decide, fun socket member => ?_⟩
    rw [List.mem_singleton.mp member]
    exact ⟨by decide, by decide, by decide⟩
  have restores : o.Restores .stored storage := Options.restores_encode Compression.inverts_stored fits rfl rfl
  obtain ⟨answered, -⟩ := demos_answered o .stored 0 storage (-5) restores nofun
  have reported := (answered (.inl rfl)).1 rfl
  have line : "DHCP OFFER: lease " ++ (⟨127, 0, 0, 5⟩ : Ipv4).text ++ " from 127.0.0.1\n" =
      "DHCP OFFER: lease 127.0.0.5 from 127.0.0.1\n" := by
    decide +kernel
  rw [← line]
  exact ⟨restores, reported⟩

end EtherChip.Bench

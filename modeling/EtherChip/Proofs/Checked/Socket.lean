import EtherChip.Proofs.Checked.Ring
import EtherChip.Proofs.Checked.Service
import EtherChip.Socket.Poll

/-!
# Sockets with checked operations

A socket computes with pointers from its registers, copies between its rings and its host socket, and takes over
saved states. The room in its rings never comes out below zero, since pointers are masked before they are
subtracted (`showFree_eq`, `rxRoom_eq`), and no data is too long for a ring (`deliver_eq`). What a socket sends and
receives stays in its buffers as long as the host keeps the lengths that it was given (`KeepsLengths`,
`fulfils_pollSocket`).
-/
namespace EtherChip.Checked

open RingOffset (ofWord)

variable {ν : Type} [NetHost ν]

/-! ## Host sockets -/

variable (ν) in
/-- What hosts promise of the lengths that they report: no more bytes come than were asked for, and no more are
taken than were offered. -/
structure KeepsLengths : Prop where
  received (id : SocketId) (max : Nat) : Always (NetHost.receiveFrom id max : StateM ν _) fun answer =>
    ∀ bytes source, answer = .ok (bytes, source) → bytes.length ≤ max
  taken (id : SocketId) (data : Bytes) : Always (NetHost.write id data : StateM ν _) fun answer =>
    ∀ n, answer = .ok n → n ≤ data.length

def receiveDatagram (s : HostSocket) (free : Nat) : Guarded ν (Except HostError DatagramEvent) := do
  match s with
  | .datagram id =>
    match ← call (NetHost.peekFrom id (maxDatagram + 1)) with
    | .error e => return if e = .eagain then .ok .idle else .error (.os e)
    | .ok len =>
      if maxDatagram < len then
        match ← call (NetHost.receiveFrom id (maxDatagram + 1)) with
        | .ok _ => return .ok (.dropped len)
        | .error e => return .error (.os e)
      else if free < (← add indexSize len receiveHeaderSize) then return .ok (.pending len)
      else
        match ← call (NetHost.receiveFrom id (maxDatagram + 1)) with
        | .ok (bytes, source) => return .ok (.received source bytes)
        | .error e => return .error (.os e)
  | _ => return .ok .idle

/-- Writes what is left of some bytes after the first `sent` of them. -/
def writeAll (id : SocketId) (data : Bytes) (sent : Nat) (net : ν) : Option (Except HostError Nat × ν) :=
  if sent < data.length then do
    let ⟨left, _⟩ ← (slice data sent data.length).attach
    match _answer : NetHost.write id left net with
    | (.ok 0, net') => return (.error .writeZero, net')
    | (.ok (n + 1), net') =>
      let ⟨next, _⟩ ← (add indexSize sent (n + 1)).attach
      writeAll id data next net'
    | (.error e, net') =>
      if e = .eagain then return (.ok sent, net')
      else if e = .eintr then writeAll id data sent net'
      else return (.error (.os e), net')
  else return (.ok sent, net)
termination_by (data.length - sent, NetHost.interruptions id (data.drop sent) net)
decreasing_by
  · apply Prod.Lex.left
    have := eq_of_add ‹add indexSize sent (n + 1) = some next›
    omega
  · rename_i again
    subst again
    apply Prod.Lex.right
    obtain rfl := eq_of_slice ‹slice data sent data.length = some left›
    have fewer := NetHost.interruptions_lt (congrArg Prod.fst _answer)
    rwa [_answer] at fewer

def sendStream (s : HostSocket) (data : Bytes) : Guarded ν (Except HostError Nat) :=
  match s with
  | .stream id => writeAll id data 0
  | _ => return .error .noStream

/-! ## Pointers and registers -/

def showFree (e : Engine) : Option Engine := do
  let used := distance (masked (e.regs.word Cell.txRead)) (masked (e.regs.word Cell.txWrite))
  return { e with regs := e.regs.setWord Cell.txFree (UInt16.ofNat (← sub ringSize used.toNat)) }

def rxRoom (e : Engine) : Option Nat := do
  let unread := distance (masked (e.regs.word Cell.rxRead)) e.rxWrite.toWord
  sub (← sub ringSize 1) unread.toNat

def store (e : Engine) (cell : Nat) (value : UInt8) : Option Engine := do
  if cell = Cell.txWrite then showFree { e with regs := e.regs.set Cell.txWrite (Engine.pointerHigh value) }
  else if cell = Cell.txWrite + 1 then showFree { e with regs := e.regs.set (Cell.txWrite + 1) value }
  else return e.store cell value

def deliver (e : Engine) (data : Bytes) : Option Engine := do
  if (← rxRoom e) < data.length then return e
  else
    let (rx, next) ← copyIn e.rx e.rxWrite.toWord data
    return ({ e with rx := rx, rxWrite := ofWord next } : Engine).showReceived.raise Interrupt.received

/-! ## Commands -/

def completeSend (e : Engine) (position : RingOffset) : Option Engine := do
  return (← showFree { e with regs := e.regs.setWord Cell.txRead position.toWord }).raise Interrupt.sendOk

def flushStream (e : Engine) : Guarded ν Engine := do
  match e.sendEnd with
  | none => return e
  | some stop =>
    let start := masked (e.regs.word Cell.txRead)
    let len := (distance start stop.toWord).toNat
    if len = 0 then completeSend { e with sendEnd := none } stop
    else
      match ← sendStream e.host (← copyOut e.tx start len) with
      | .error _ => call e.release
      | .ok sent =>
        if sent < len then
          if sent = 0 then return e
          else showFree { e with regs := e.regs.setWord Cell.txRead ((ofWord start).advance sent).toWord }
        else completeSend { e with sendEnd := none } stop

def sendDatagram (e : Engine) (cfg : NetConfig) (data : Bytes) : Guarded ν Engine := do
  let port := e.regs.word Cell.destPort
  if port = dhcpServerPort then deliver e (← respond data cfg.bindAddr cfg.serverAddr)
  else if port = ntpPort then
    match ← respondTime data cfg.serverAddr (NetHost.clock (← get)) with
    | some reply => deliver e reply
    | none => return e
  else
    let _ ← call (e.host.sendDatagram data (e.destEndpoint cfg))
    return e

def sendWaiting (e : Engine) (cfg : NetConfig) : Guarded ν Engine := do
  let start := masked (e.regs.word Cell.txRead)
  let len := (distance start (masked (e.regs.word Cell.txWrite))).toNat
  let e ← if len = 0 then pure e else do sendDatagram e cfg (← copyOut e.tx start len)
  completeSend e ((ofWord start).advance len)

def send (e : Engine) (cfg : NetConfig) : Guarded ν Engine :=
  match e.status with
  | .established => flushStream { e with sendEnd := some e.txWrite }
  | .udpReady => sendWaiting e cfg
  | _ => pure e

/-- Only SEND has something to check. -/
def command (e : Engine) (cfg : NetConfig) (b : UInt8) : Guarded ν Engine :=
  match e.status, Command.ofCode? b with
  | .established, some .send | .udpReady, some .send => send e cfg
  | _, _ => call (e.command cfg b)

def writeRegister (e : Engine) (cfg : NetConfig) (cell : Nat) (value : UInt8) : Guarded ν Engine :=
  if cell = Cell.command then command e cfg value else store e cell value

/-! ## Polling -/

def pollStream (e : Engine) (room : Nat) : Guarded ν Engine := do
  match ← call (e.host.receiveStream room) with
  | .idle => return e
  | .data bytes => deliver e bytes
  | .closed => call e.release

/-- The buffer that a datagram is received into, one byte longer than the largest datagram. What stands behind
the datagram does not matter. -/
def scratch (received : Bytes) : Bytes := (received ++ List.replicate (maxDatagram + 1) 0).take (maxDatagram + 1)

@[simp] theorem length_scratch (received : Bytes) : (scratch received).length = maxDatagram + 1 := by
  simp [scratch]

theorem take_scratch {received : Bytes} (fits : received.length ≤ maxDatagram + 1) :
    (scratch received).take received.length = received := by
  rw [scratch, List.take_take, Nat.min_eq_left fits, List.take_left]

def pollDatagram (e : Engine) (room : Nat) : Guarded ν Engine := do
  match ← receiveDatagram e.host room with
  | .ok (.received source bytes) =>
    let _capacity ← add indexSize receiveHeaderSize bytes.length
    let payload ← slice (scratch bytes) 0 bytes.length
    deliver e (receiveHeader source bytes.length ++ payload)
  | _ => return e

def pollSocket (e : Engine) : Guarded ν Engine := do
  let room ← rxRoom e
  match e.status with
  | .closed => return e
  | .init => call e.pollConnect
  | .listen => call e.pollListener
  | .established => pollStream (← flushStream e) room
  | .udpReady => pollDatagram e room

/-- Takes over a saved state. -/
def loadSocket (e : Engine) (state : SocketState) : Guarded ν Engine := do
  call e.host.close
  let cells ← restore bankPowerOn state.registers
  return { regs := (⟨cells⟩ : RegisterBank).set Cell.status Status.closed.code
           tx := ⟨← restore Ring.empty.cells state.tx⟩
           rx := ⟨← restore Ring.empty.cells state.rx⟩
           rxWrite := ofWord state.rxWrite }

/-! ## No operation fails -/

section

variable (bounds : KeepsLengths ν)

theorem fulfils_receiveDatagram (s : HostSocket) (free : Nat) :
    Fulfils (receiveDatagram s free : Guarded ν _) (s.receiveDatagram free) := by
  unfold receiveDatagram HostSocket.receiveDatagram
  cases s with
  | none | tcp | connecting | listener | stream => exact .pure _
  | datagram id =>
    refine .bind (.call _) fun looked => ?_
    split
    · exact .pure _
    refine .ite (fun _ => .bind (.call _) fun taken => ?_) fun small => ?_
    · split <;> exact .pure _
    refine .pass (add_eq ?_) (.ite (fun _ => .pure _) fun _ => .bind (.call _) fun taken => ?_)
    · simp only [maxDatagram, ringSize, receiveHeaderSize, indexSize] at *
      omega
    · split <;> exact .pure _

include bounds

omit bounds in
/-- What a checked write comes to, by the answer to its first call. -/
theorem writeAll_step {id : SocketId} {data : Bytes} {sent : Nat} {net net' : ν} {answer : Except Errno Nat}
    (more : sent < data.length) :
    NetHost.write id (data.drop sent) net = (answer, net') → (∀ n, answer = .ok n → sent + n < indexSize) →
      writeAll id data sent net =
        match answer with
        | .ok 0 => some (.error .writeZero, net')
        | .ok (n + 1) => writeAll id data (sent + (n + 1)) net'
        | .error e =>
          if e = .eagain then some (.ok sent, net')
          else if e = .eintr then writeAll id data sent net'
          else some (.error (.os e), net') := by
  intro asked fits
  rw [writeAll, if_pos more]
  refine pass_attach (slice_back (Nat.le_of_lt more)) ?_
  dsimp only
  split
  all_goals
    rename_i answered
    cases asked.symm.trans answered
  · rfl
  · exact pass_attach (add_eq (fits _ rfl)) rfl
  · rfl

theorem fulfils_writeAll (id : SocketId) {data : Bytes} (short : data.length ≤ ringSize) {sent : Nat}
    (within : sent ≤ data.length) :
    Fulfils (writeAll id data sent : Guarded ν _) (HostSocket.writeAll id (data.drop sent) sent) := by
  -- The index goes up here and what is left gets shorter in `HostSocket.writeAll`; both stop at the length.
  intro net
  generalize back : data.drop sent = left
  have taken {sent : Nat} {b : UInt8} {rest : Bytes} (back : data.drop sent = b :: rest) {net net' : ν}
      {answer : Except Errno Nat} (answered : NetHost.write id (b :: rest) net = (answer, net')) (n : Nat)
      (same : answer = .ok n) : sent + n ≤ data.length := by
    have more := List.length_lt_of_drop_ne_nil (back ▸ List.cons_ne_nil b rest)
    have known := bounds.taken id (b :: rest) net n (by rw [answered, same])
    rw [← back, List.length_drop] at known
    omega
  have small {n : Nat} (known : n ≤ data.length) : n < indexSize := by
    simp only [ringSize, indexSize] at *
    omega
  have step {sent : Nat} {b : UInt8} {rest : Bytes} (back : data.drop sent = b :: rest) {net net' : ν}
      {answer : Except Errno Nat} (answered : NetHost.write id (b :: rest) net = (answer, net')) :=
    writeAll_step (List.length_lt_of_drop_ne_nil (back ▸ List.cons_ne_nil b rest)) (back ▸ answered)
      fun n same => small (taken back answered n same)
  induction left, sent, net using HostSocket.writeAll_induct with
  | done sent net =>
    have all := List.drop_eq_nil_iff.mp back
    rw [writeAll, if_neg (Nat.not_lt.mpr all), HostSocket.writeAll_nil]
    rfl
  | stuck sent net b rest after answered =>
    rw [HostSocket.writeAll_cons answered]
    exact step back answered
  | taken sent net b rest n after answered ih =>
    have known := taken back answered (n + 1) rfl
    have short_left : (b :: rest).length = data.length - sent := by rw [← back, List.length_drop]
    have whole : min (n + 1) (rest.length + 1) = n + 1 := by
      rw [List.length_cons] at short_left
      omega
    rw [HostSocket.writeAll_cons answered]
    dsimp only
    rw [whole] at ih ⊢
    refine (step back answered).trans (ih known ?_)
    rw [← List.drop_drop, back, List.drop_succ_cons]
  | waits sent net b rest after answered =>
    rw [HostSocket.writeAll_cons answered]
    exact step back answered
  | interrupted sent net b rest after answered ih =>
    rw [HostSocket.writeAll_interrupted answered]
    exact (step back answered).trans (ih within back)
  | failed sent net b rest e after answered wait again =>
    rw [HostSocket.writeAll_cons answered]
    refine (step back answered).trans ?_
    simp only [if_neg wait, if_neg again]

theorem fulfils_sendStream (s : HostSocket) {data : Bytes} (short : data.length ≤ ringSize) :
    Fulfils (sendStream s data : Guarded ν _) (s.sendStream data) := by
  cases s with
  | none | tcp | connecting | listener | datagram => exact .pure _
  | stream id => exact fulfils_writeAll bounds id short (Nat.zero_le _)

end

theorem showFree_eq (e : Engine) : showFree e = some e.showFree := by
  unfold showFree
  simp only [toNat_distance, ofWord_masked]
  exact pass (sub_eq (Nat.le_of_lt (RingOffset.distance_lt ..))) rfl

theorem rxRoom_eq (e : Engine) : rxRoom e = some e.rxRoom := by
  unfold rxRoom
  simp only [toNat_distance, ofWord_masked, RingOffset.ofWord_toWord]
  exact pass (sub_eq (by decide)) (sub_eq (Nat.le_sub_one_of_lt (RingOffset.distance_lt ..)))

theorem store_eq (e : Engine) (cell : Nat) (value : UInt8) : store e cell value = some (e.store cell value) := by
  unfold store
  split
  · rename_i high
    subst high
    exact showFree_eq _
  split
  · rename_i low
    subst low
    exact showFree_eq _
  · rfl

theorem deliver_eq (e : Engine) (data : Bytes) : deliver e data = some (e.deliver data) := by
  unfold deliver Engine.deliver Engine.deliver?
  refine pass (rxRoom_eq e) ?_
  split
  · rfl
  · refine pass (copyIn_eq ..) ?_
    rw [RingOffset.ofWord_toWord]
    dsimp only
    rw [RingOffset.ofWord_toWord]
    rfl

theorem completeSend_eq (e : Engine) (position : RingOffset) :
    completeSend e position = some (e.completeSend position) := pass (showFree_eq _) rfl

theorem fulfils_flushStream (bounds : KeepsLengths ν) (e : Engine) :
    Fulfils (flushStream e : Guarded ν _) e.flushStream := by
  unfold flushStream Engine.flushStream
  cases e.sendEnd with
  | none => exact .pure _
  | some stop =>
    simp only [toNat_distance, ofWord_masked, RingOffset.ofWord_toWord]
    refine .ite (fun _ => .value (completeSend_eq ..)) fun _ => .pass (copyOut_eq ..) ?_
    rw [ofWord_masked]
    refine .bind (fulfils_sendStream bounds _ ?_) fun answer => ?_
    · rw [Ring.length_copyOut]
      exact Nat.min_le_right ..
    cases answer with
    | error => exact .call _
    | ok sent =>
      refine .ite (fun _ => ?_) fun _ => .value (completeSend_eq ..)
      exact .ite (fun _ => .pure _) fun _ => .value (showFree_eq _)

/-! ## Sockets -/

theorem fulfils_sendDatagram (e : Engine) (cfg : NetConfig) {data : Bytes} (short : data.length ≤ ringSize) :
    Fulfils (sendDatagram e cfg data : Guarded ν _) (e.sendDatagram cfg data) := by
  unfold sendDatagram Engine.sendDatagram
  refine .ite (fun _ => .pass (respond_eq short ..) (.value (deliver_eq ..))) fun _ => .ite (fun _ => ?_) fun _ =>
    .bind (.call _) fun _ => .pure _
  have now : Fulfils (get : Guarded ν ν) get := fun _ => rfl
  refine .bind now fun net => .pass (respondTime_eq ..) ?_
  cases Sntp.respond? data cfg.serverAddr (NetHost.clock net) with
  | none => exact .pure _
  | some reply => exact .value (deliver_eq ..)

theorem fulfils_sendWaiting (e : Engine) (cfg : NetConfig) :
    Fulfils (sendWaiting e cfg : Guarded ν _) (e.sendWaiting cfg) := by
  unfold sendWaiting Engine.sendWaiting
  simp only [toNat_distance, ofWord_masked]
  refine .ite (fun _ => .bind (.pure _) fun _ => .value (completeSend_eq ..)) fun _ =>
    .pass (copyOut_eq ..) (.bind ?_ fun _ => .value (completeSend_eq ..))
  rw [ofWord_masked]
  refine fulfils_sendDatagram e cfg ?_
  rw [Ring.length_copyOut]
  exact Nat.min_le_right ..

theorem fulfils_pollStream (e : Engine) (room : Nat) :
    Fulfils (pollStream e room : Guarded ν _) (e.pollStream room) := by
  unfold pollStream Engine.pollStream
  refine .bind (.call _) fun event => ?_
  cases event with
  | idle => exact .pure _
  | data bytes => exact .value (deliver_eq ..)
  | closed => exact .call _

theorem fulfils_loadSocket (e : Engine) (state : SocketState) :
    Fulfils (loadSocket e state : Guarded ν _) (e.load state) := by
  unfold loadSocket Engine.load
  exact .bind (.call _) fun _ => .pass (restore_eq ..) (.pass (restore_eq ..) (.pass (restore_eq ..) (.pure _)))

section

variable (bounds : KeepsLengths ν)

include bounds

theorem fulfils_send (e : Engine) (cfg : NetConfig) : Fulfils (send e cfg : Guarded ν _) (e.send cfg) := by
  unfold send Engine.send
  cases e.status with
  | closed | init | listen => exact .pure _
  | established => exact fulfils_flushStream bounds _
  | udpReady => exact fulfils_sendWaiting e cfg

theorem fulfils_command (e : Engine) (cfg : NetConfig) (b : UInt8) :
    Fulfils (command e cfg b : Guarded ν _) (e.command cfg b) := by
  unfold command
  split
  · rename_i status code
    rw [Engine.command, status, code]
    exact fulfils_send bounds e cfg
  · rename_i status code
    rw [Engine.command, status, code]
    exact fulfils_send bounds e cfg
  · exact .call _

theorem fulfils_writeRegister (e : Engine) (cfg : NetConfig) (cell : Nat) (value : UInt8) :
    Fulfils (writeRegister e cfg cell value : Guarded ν _) (e.writeRegister cfg cell value) :=
  .ite (fun _ => fulfils_command bounds e cfg value) fun _ => .value (store_eq ..)

/-- A datagram that is taken fits in the buffer for it. -/
theorem length_receiveDatagram (s : HostSocket) (free : Nat) :
    Always (s.receiveDatagram free : StateM ν _) fun answer =>
      ∀ source bytes, answer = .ok (.received source bytes) → bytes.length ≤ maxDatagram + 1 := by
  unfold HostSocket.receiveDatagram
  cases s with
  | none | tcp | connecting | listener | stream => exact .pure nofun
  | datagram id =>
    refine .bind (.any _) fun looked _ => ?_
    cases looked with
    | error e =>
      refine .pure fun source bytes answer => ?_
      split at answer <;> exact nomatch answer
    | ok len =>
      dsimp only
      split
      · refine .bind (.any _) fun taken _ => ?_
        cases taken <;> exact .pure nofun
      split
      · exact .pure nofun
      refine .bind (bounds.received id _) fun taken bound => ?_
      match taken, bound with
      | .error _, _ => exact .pure nofun
      | .ok (bytes, source), bound =>
        refine .pure fun from' payload same => ?_
        cases same
        exact bound bytes source rfl

theorem fulfils_pollDatagram (e : Engine) (room : Nat) :
    Fulfils (pollDatagram e room : Guarded ν _) (e.pollDatagram room) := by
  unfold pollDatagram Engine.pollDatagram
  have bounded := length_receiveDatagram bounds e.host room
  refine .bind_known (fulfils_receiveDatagram e.host room) bounded fun answer fits => ?_
  match answer, fits with
  | .ok (.received source bytes), fits =>
    have bound := fits source bytes rfl
    have fits : bytes.length ≤ (scratch bytes).length := by rwa [length_scratch]
    refine .pass (add_eq ?_) (.pass (slice_front fits) ?_)
    · simp only [receiveHeaderSize, maxDatagram, ringSize, indexSize] at *
      omega
    rw [take_scratch bound]
    exact .value (deliver_eq ..)
  | .ok .idle, _ | .ok (.pending _), _ | .ok (.dropped _), _ | .error _, _ => exact .pure _

theorem fulfils_pollSocket (e : Engine) : Fulfils (pollSocket e : Guarded ν _) e.poll := by
  unfold pollSocket Engine.poll
  refine .pass (rxRoom_eq e) ?_
  dsimp only
  cases e.status with
  | closed => exact .pure _
  | init | listen => exact .call _
  | established => exact .bind (fulfils_flushStream bounds e) fun e => fulfils_pollStream e _
  | udpReady => exact fulfils_pollDatagram bounds e _

end

end EtherChip.Checked

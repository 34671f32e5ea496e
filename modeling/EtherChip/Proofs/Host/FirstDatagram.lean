import EtherChip.Host.Network
import EtherChip.Host.Socket
import EtherChip.Proofs.Host.Outcome

/-!
# The first datagram socket of a network

On a network on which nothing has happened yet, a datagram socket can be bound at the addresses of the
local machine and at the unspecified one, and only there. Nothing is sent to it before it sends something
itself, so it finds no datagram.
-/
namespace EtherChip.Network

/-- Without faults a call is made. -/
theorem attempt_run {α : Type} (call : HostCall) (onZero : Option α) (body : StateM Network (Except Errno α))
    {net : Network} (none : net.faults = []) : attempt call onZero body net = body net := by
  have same : ({ net with faults := [] } : Network) = net := by rw [← none]
  unfold attempt
  rw [none]
  exact congrArg body same

/-- A network on which nothing has happened yet. -/
def untouched (clock : Int) : Network := { clock := clock }

/-- A network with one datagram socket, at which nothing has arrived. -/
def withDatagram (clock : Int) (addr : Option Endpoint) : Network :=
  { sockets := [(⟨0⟩, .udp addr [])], nextId := 1, clock := clock }

/-- An address at which sockets can be bound. -/
def Bindable (ip : Ipv4) : Prop := ip.a = 127 ∨ ip = Ipv4.unspecified

instance (ip : Ipv4) : Decidable (Bindable ip) := inferInstanceAs (Decidable (_ ∨ _))

theorem isLoopback_or_unspecified (ip : Ipv4) :
    (ip.isLoopback || decide (ip = Ipv4.unspecified)) = decide (Bindable ip) := by
  by_cases first : ip.a = 127 <;> simp [Bindable, Ipv4.isLoopback, first]

section

variable (clock : Int) {ip : Ipv4}

theorem bind_bindable (bindable : Bindable ip) {port : UInt16} (some : port ≠ 0) :
    Network.bind ⟨0⟩ ⟨ip, port⟩ (withDatagram clock none) = (.ok (), withDatagram clock (Option.some ⟨ip, port⟩)) := by
  have found : (withDatagram clock none).socket? ⟨0⟩ = .some (.udp none []) := rfl
  rw [Network.bind, attempt_run _ _ _ rfl, get_run, found]
  simp only [isLoopback_or_unspecified, bindable, NetSocket.addr?, if_neg some]
  rfl

theorem bind_foreign (foreign : ¬Bindable ip) (port : UInt16) :
    Network.bind ⟨0⟩ ⟨ip, port⟩ (withDatagram clock none) = (.error .eaddrnotavail, withDatagram clock none) := by
  have found : (withDatagram clock none).socket? ⟨0⟩ = .some (.udp none []) := rfl
  rw [Network.bind, attempt_run _ _ _ rfl, get_run, found]
  simp only [isLoopback_or_unspecified, foreign, NetSocket.addr?]
  rfl

theorem udpSocket_untouched : NetHost.udpSocket (untouched clock) = (.ok ⟨0⟩, withDatagram clock none) := rfl

theorem setUp_of_ok {id : SocketId} {call : StateM Network (Except Errno Unit)} {net net' : Network}
    (worked : call net = (.ok (), net')) (calls : List (StateM Network (Except Errno Unit))) :
    HostSocket.setUp id (call :: calls) net = HostSocket.setUp id calls net' := by
  rw [HostSocket.setUp, bind_run, worked]

theorem setUp_of_error {id : SocketId} {call : StateM Network (Except Errno Unit)} {net net' : Network} {e : Errno}
    (failed : call net = (.error e, net')) (calls : List (StateM Network (Except Errno Unit))) :
    HostSocket.setUp id (call :: calls) net = (.error e, (close id net').2) := by
  rw [HostSocket.setUp, bind_run, failed]
  rfl

/-- At local addresses the first datagram socket can be bound. -/
theorem openUdp_bindable (bindable : Bindable ip) {port : UInt16} (some : port ≠ 0) :
    HostSocket.openUdp ⟨ip, port⟩ (untouched clock) =
      (.ok (.datagram ⟨0⟩), withDatagram clock (Option.some ⟨ip, port⟩)) := by
  have bound : NetHost.bind ⟨0⟩ ⟨ip, port⟩ (withDatagram clock none) = _ := bind_bindable clock bindable some
  rw [HostSocket.openUdp, bind_run, udpSocket_untouched]
  dsimp only
  rw [bind_run, setUp_of_ok bound]
  rfl

/-- Elsewhere it cannot, and is closed again. -/
theorem openUdp_foreign (foreign : ¬Bindable ip) (port : UInt16) :
    HostSocket.openUdp ⟨ip, port⟩ (untouched clock) =
      (.error (.os .eaddrnotavail), { nextId := 1, clock := clock }) := by
  have refused : NetHost.bind ⟨0⟩ ⟨ip, port⟩ (withDatagram clock none) = _ := bind_foreign clock foreign port
  rw [HostSocket.openUdp, bind_run, udpSocket_untouched]
  dsimp only
  rw [bind_run, setUp_of_error refused]
  rfl

end

theorem receive_withDatagram (clock : Int) (addr : Option Endpoint) (room : Nat) :
    (HostSocket.datagram ⟨0⟩).receiveDatagram room (withDatagram clock addr) = (.ok .idle, withDatagram clock addr) :=
  rfl

end EtherChip.Network

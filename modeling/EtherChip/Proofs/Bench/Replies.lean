import EtherChip.Bench.Demo
import EtherChip.Proofs.SaveState.Layout
import EtherChip.Proofs.Service.Lease

/-!
# What the demos make of the replies

Behind its receive header, a reply of the DHCP service has the lease, the server and its type where the
bench looks for them, whatever the request was (`describeLease_replyMessage`); a reply of the time service
has its timestamp there (`describeTime_respond`).
-/
namespace EtherChip

namespace Bench

theorem addressAt?_of_octets {message : Bytes} {start : Nat} {ip : Ipv4} (here : (message.drop start).take 4 = ip.octets) :
    addressAt? message start = some ip := by
  rw [addressAt?, here]
  rfl

/-- A reply to any request is described by its type, the lease and the server. -/
theorem describeLease_replyMessage (request : Bytes) (leased server : Ipv4) :
    describeLease (Dhcp.replyMessage request leased server) =
      .ok ("DHCP " ++ replyWord (some (Dhcp.replyType request)) ++ ": lease " ++ leased.text ++ " from " ++
        server.text ++ "\n") := by
  have answers := Dhcp.replyMessage_answers request leased server
  rw [describeLease, addressAt?_of_octets answers.leaseAddr, addressAt?_of_octets answers.serverAddr, answers.type]

theorem length_discoverRequest : discoverRequest.length = Dhcp.messageSize := by
  simp [discoverRequest]
  rfl

/-- The bench asks for an offer. -/
theorem replyType_discoverRequest : Dhcp.replyType discoverRequest = Dhcp.offer := by
  have options : discoverRequest.drop Dhcp.optionsStart = Dhcp.typeOption :: 1 :: Dhcp.discover :: 255 ::
      List.replicate (Dhcp.messageSize - Dhcp.optionsStart - 4) 0 := by
    decide +kernel
  rw [Dhcp.replyType, Dhcp.messageType?, options]
  simp [Dhcp.typeInOptions, Dhcp.typeOption, Dhcp.discover]

theorem describeLease_respond (leased server : Ipv4) :
    describeLease ((Dhcp.respond discoverRequest leased server).drop receiveHeaderSize) =
      .ok ("DHCP OFFER: lease " ++ leased.text ++ " from " ++ server.text ++ "\n") := by
  rw [Dhcp.respond, List.drop_left' (length_receiveHeader _ _), describeLease_replyMessage, replyType_discoverRequest]
  rfl

/-! ## Time -/

theorem ofBigEndian_bigEndian {width value : Nat} (fits : value < Nat.pow 256 width) :
    Bytes.ofBigEndian (Bytes.bigEndian width value) = value := by
  rw [Bytes.ofBigEndian, Bytes.bigEndian, List.reverse_reverse, Bytes.ofLittleEndian_littleEndian_of_lt fits]

/-- The line for a timestamp. -/
def timeLine (seconds : Nat) : String :=
  "NTP transmit time: " ++ seconds.repr ++ " (unix " ++ (seconds - Sntp.epochOffset).repr ++ ")\n"

theorem describeTime_packet {front : Bytes} (length : front.length = Sntp.transmitTimestamp) {seconds : Nat}
    (fits : seconds < Sntp.eraSeconds) (back : Bytes) :
    describeTime (front ++ (Bytes.bigEndian 4 seconds ++ back)) = .ok (timeLine seconds) := by
  have four : (Bytes.bigEndian 4 seconds).length = 4 := by simp [Bytes.bigEndian]
  rw [describeTime, List.drop_left' length, List.take_left' four]
  dsimp only
  rw [if_neg (by omega), ofBigEndian_bigEndian fits]
  rfl

/-- The time service answers the bench with the clock in its timestamp. -/
theorem respond?_timeRequest (server : Ipv4) (unixSeconds : Nat) :
    ∃ reply, Sntp.respond? timeRequest server unixSeconds = some reply ∧
      reply.length = receiveHeaderSize + Sntp.packetSize ∧
      describeTime (reply.drop receiveHeaderSize) = .ok (timeLine (Sntp.timestampSeconds unixSeconds)) := by
  have whole : timeRequest.length = Sntp.packetSize := by decide
  have front : (timeRequest.take Sntp.transmitTimestamp).length = Sntp.transmitTimestamp := by decide
  refine ⟨_, if_pos whole, ?_, ?_⟩
  · simp [front, Bytes.bigEndian]
    rfl
  · rw [List.append_assoc, List.append_assoc, List.drop_left' (length_receiveHeader _ _)]
    exact describeTime_packet front (Nat.mod_lt _ (by decide)) _

end Bench

end EtherChip

import EtherChip.Proofs.Service.OptionArea

/-!
# Replies of the DHCP service

Every request has a reply of one layout (`Answers`): its fixed fields are those of the request, with zeros
where the request has ended, but for the operation, the lease and the server; then come the cookie and
four options. The layout is kept for requests of every length (`request_answered`), and nothing of a
request behind its fixed fields reaches the reply but the type.
-/
namespace EtherChip.Dhcp

/-! ## Pieces of a message -/

@[simp] theorem length_field (request : Bytes) (start len : Nat) : (field request start len).length = len := by
  simp only [field, List.length_append, List.length_take, List.length_drop, List.length_replicate]
  omega

/-- A field byte by byte: the bytes of the request, and zeros where it has ended. -/
theorem getElem?_field (request : Bytes) (start : Nat) {len j : Nat} (inside : j < len) :
    (field request start len)[j]? = some (request[start + j]?.getD 0) := by
  have whole : ((request.drop start).take len)[j]? = request[start + j]? := by
    rw [List.getElem?_take_of_lt inside, List.getElem?_drop]
  rw [field]
  by_cases present : j < ((request.drop start).take len).length
  · rw [List.getElem?_append_left present, whole]
    rw [List.getElem?_eq_getElem present] at whole
    rw [← whole, Option.getD_some]
  · have past := Nat.not_lt.mp present
    rw [← whole, List.getElem?_eq_none past, List.getElem?_append_right past, List.getElem?_replicate, if_pos (by omega),
      Option.getD_none]

theorem field_congr {request other : Bytes} {start len : Nat}
    (same : ∀ j < len, request[start + j]?.getD 0 = other[start + j]?.getD 0) :
    field request start len = field other start len := by
  apply List.ext_getElem?
  intro j
  by_cases inside : j < len
  · rw [getElem?_field _ _ inside, getElem?_field _ _ inside, same j inside]
  · have past := Nat.not_lt.mp inside
    rw [List.getElem?_eq_none (by rwa [length_field]), List.getElem?_eq_none (by rwa [length_field])]

section

variable {message piece back : Bytes} {start len : Nat}

/-- The piece that stands at a position, and what comes behind it. -/
theorem piece_at (here : message.drop start = piece ++ back) (length : piece.length = len) :
    (message.drop start).take len = piece ∧ message.drop (start + len) = back := by
  rw [← List.drop_drop, here]
  exact ⟨List.take_left' length, List.drop_left' length⟩

/-- A message that has a field of a request at the same position repeats its bytes there. -/
theorem getElem?_of_field {request : Bytes} (here : message.drop start = field request start len ++ back) {i : Nat}
    (lower : start ≤ i) (upper : i < start + len) : message[i]? = some (request[i]?.getD 0) := by
  obtain ⟨j, rfl⟩ := Nat.exists_eq_add_of_le lower
  have inside : j < len := by omega
  rw [← List.getElem?_drop, here, List.getElem?_append_left (by rwa [length_field]), getElem?_field _ _ inside]

end

/-! ## The layout of a reply -/

/-- The options of a reply, the end mark, and zeros that fill the message up. -/
def replyArea (kind : UInt8) (server : Ipv4) : OptionArea where
  items :=
    [.option ⟨53, [kind], by decide, by simp⟩, .option ⟨1, [255, 255, 255, 0], by decide, by simp⟩,
      .option ⟨3, server.octets, by decide, by simp [Ipv4.octets]⟩,
      .option ⟨54, server.octets, by decide, by simp [Ipv4.octets]⟩]
  ending := .mark (List.replicate 38 0)

/-- Positions of the bytes that a reply repeats from its request. -/
def Echoed (i : Nat) : Prop := 1 ≤ i ∧ i < 16 ∨ 24 ≤ i ∧ i < 236

/-- What stands where in a reply message. -/
structure Answers (request : Bytes) (leased server : Ipv4) (kind : UInt8) (message : Bytes) : Prop where
  length : message.length = 300
  operation : message[0]? = some 2
  /-- A request that has ended counts as zeros. -/
  echoed : ∀ i, Echoed i → message[i]? = some (request[i]?.getD 0)
  leaseAddr : (message.drop 16).take 4 = leased.octets
  serverAddr : (message.drop 20).take 4 = server.octets
  cookie : (message.drop 236).take 4 = [99, 130, 83, 99]
  options : ∀ area : OptionArea, area.bytes = message.drop 240 ↔ area = replyArea kind server
  type : messageType? message = some kind

section

variable (request : Bytes) (leased server : Ipv4)

/-- A reply up to its options. -/
theorem drop_replyMessage :
    (replyMessage request leased server).drop optionsStart = (replyArea (replyType request) server).bytes := by
  have front : ([2] ++ field request 1 15 ++ leased.octets ++ server.octets ++ field request 24 (fixedSize - 24) ++
      cookie).length = optionsStart := by
    simp only [List.length_append, length_field]
    rfl
  rw [replyMessage, List.append_assoc _ (_ ++ [255]), List.drop_left' front]
  rfl

theorem length_replyMessage : (replyMessage request leased server).length = messageSize := by
  simp [replyMessage, replyOptions, encodeOption, Ipv4.octets]
  rfl

/-- The first option of every reply is its type. -/
theorem messageType?_replyMessage :
    messageType? (replyMessage request leased server) = some (replyType request) := by
  rw [messageType?, drop_replyMessage, typeInOptions_bytes]
  rfl

theorem replyMessage_answers :
    Answers request leased server (replyType request) (replyMessage request leased server) := by
  have behindOperation : (replyMessage request leased server).drop 1 =
      field request 1 15 ++ (leased.octets ++ (server.octets ++ (field request 24 212 ++ (cookie ++
        (replyArea (replyType request) server).bytes)))) := by
    simp only [replyMessage, List.append_assoc]
    rfl
  obtain ⟨-, atLease⟩ := piece_at behindOperation (length_field ..)
  obtain ⟨leaseAddr, atServer⟩ := piece_at atLease (show leased.octets.length = 4 from rfl)
  obtain ⟨serverAddr, atField⟩ := piece_at atServer (show server.octets.length = 4 from rfl)
  obtain ⟨-, atCookie⟩ := piece_at atField (length_field ..)
  obtain ⟨isCookie, atOptions⟩ := piece_at atCookie (show cookie.length = 4 from rfl)
  exact {
    length := length_replyMessage request leased server
    operation := rfl
    echoed := fun i echoed => echoed.elim (fun first => getElem?_of_field behindOperation first.1 first.2)
      fun second => getElem?_of_field atField second.1 second.2
    leaseAddr := leaseAddr
    serverAddr := serverAddr
    cookie := isCookie
    options := fun area => by
      rw [← OptionArea.parse_eq_iff, atOptions, OptionArea.parse_bytes, eq_comm]
    type := messageType?_replyMessage request leased server }

/-- What a reply depends on. -/
theorem respond_congr {request other : Bytes} (same : ∀ i, Echoed i → other[i]?.getD 0 = request[i]?.getD 0)
    (type : replyType other = replyType request) : respond other leased server = respond request leased server := by
  have first : field other 1 15 = field request 1 15 := field_congr fun j inside => same _ (.inl (by omega))
  have second : field other 24 (fixedSize - 24) = field request 24 (fixedSize - 24) :=
    field_congr fun j inside => same _ (.inr (by rw [fixedSize] at inside; omega))
  rw [respond, respond, replyMessage, replyMessage, first, second, type]

end

/-- **The reply law.** Every request, however long, gets a reply of 308 bytes: the receive header, which
names port 67 of the server and 300 bytes, and a message that answers it. The reply to a DISCOVER is an
offer and any other an acknowledgement, and but for that, two requests that have the same bytes in the
fields that are repeated get the same reply. -/
theorem request_answered (request : Bytes) (leased server : Ipv4) :
    let reply := respond request leased server
    let kind : UInt8 := if messageType? request = some 1 then 2 else 5
    reply.length = 308 ∧ reply.take 8 = server.octets ++ [0, 67, 1, 44] ∧
    Answers request leased server kind (reply.drop 8) ∧
    ∀ other : Bytes, (∀ i, Echoed i → other[i]?.getD 0 = request[i]?.getD 0) →
      (messageType? other = some 1 ↔ messageType? request = some 1) → respond other leased server = reply := by
  intro reply kind
  have header : (receiveHeader ⟨server, dhcpServerPort⟩ messageSize).length = 8 := rfl
  have words : ([highByte dhcpServerPort, lowByte dhcpServerPort, highByte (UInt16.ofNat messageSize),
      lowByte (UInt16.ofNat messageSize)] : Bytes) = [0, 67, 1, 44] := by decide
  have message : reply.drop 8 = replyMessage request leased server := List.drop_left' header
  have length : reply.length = 8 + messageSize := by
    rw [← length_replyMessage request leased server, ← header]
    exact List.length_append
  have named : reply.take 8 = server.octets ++ [0, 67, 1, 44] := by
    rw [← words]
    exact List.take_left' header
  refine ⟨length, named, message ▸ replyMessage_answers request leased server, fun other same type => ?_⟩
  exact respond_congr leased server same (ite_congr (propext type) (fun _ => rfl) fun _ => rfl)

end EtherChip.Dhcp

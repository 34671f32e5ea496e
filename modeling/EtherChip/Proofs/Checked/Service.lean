import EtherChip.Proofs.Checked.Primitive
import EtherChip.Proofs.Service.Lease
import EtherChip.Proofs.Socket.RingCopy
import EtherChip.Service.Sntp

/-!
# Built-in services with checked buffers

The DHCP service walks through a request by index and puts its reply together in a buffer of 300 bytes, piece
by piece. The time service overwrites eight bytes of the packet that it sends back. Requests that fit in a ring
are walked through without an index past their end (`messageType_eq`), and every piece lies in its buffer
(`respond_eq`, `respondTime_eq`).
-/
namespace EtherChip.Checked

open Dhcp

/-- What a buffer holds after a piece of it has been written over. -/
theorem toList_overlay_piece {n : Nat} {cells : Vector UInt8 n} {front old back data : Bytes}
    (whole : cells.toList = front ++ (old ++ back)) (same : old.length = data.length) :
    (overlay cells front.length data).toList = front ++ (data ++ back) := by
  induction data generalizing cells front old with
  | nil =>
    obtain rfl := List.eq_nil_of_length_eq_zero same
    exact whole
  | cons b bs ih =>
    obtain ⟨o, old, rfl⟩ := List.exists_cons_of_length_eq_add_one same
    have next : (cells.setIfInBounds front.length b).toList = (front ++ [b]) ++ (old ++ back) := by
      rw [Vector.toList_setIfInBounds, whole, List.set_append_right _ _ (Nat.le_refl _), Nat.sub_self]
      simp
    have length : (front ++ [b]).length = front.length + 1 := List.length_append
    rw [overlay, ← length, ih next (Nat.succ.inj same), List.append_assoc]
    rfl

/-- A range that is as long as the piece that stands there can be written. -/
theorem fill_piece (data : Bytes) (start stop : Nat) {n : Nat} {cells : Vector UInt8 n} {front old back : Bytes}
    (whole : cells.toList = front ++ (old ++ back)) (here : front.length = start) (same : old.length = data.length)
    (ends : start + data.length = stop) :
    ∃ written : Vector UInt8 n,
      fill cells start stop data = some written ∧ written.toList = front ++ (data ++ back) := by
  subst here
  have total := congrArg List.length whole
  simp only [Vector.length_toList, List.length_append] at total
  exact ⟨_, fill_eq ends (by omega), toList_overlay_piece whole same⟩

/-! ## DHCP -/

/-- The walk over the options of a request from an index on. The answer can be that there is no type. -/
def messageType (request : Bytes) (i : Nat) : Option (Option UInt8) := do
  if i < request.length then
    let code ← request[i]?
    if code = 0 then
      let ⟨next, _⟩ ← (add indexSize i 1).attach
      messageType request next
    else if code = 255 then return none
    else
      match request[← add indexSize i 1]? with
      | none => return none
      | some len =>
        if code = typeOption ∧ 1 ≤ len.toNat then return request[← add indexSize i 2]?
        let ⟨width, _⟩ ← (add indexSize 2 len.toNat).attach
        let ⟨next, _⟩ ← (add indexSize i width).attach
        messageType request next
  else return none
termination_by request.length - i
decreasing_by
  · have := eq_of_add ‹add indexSize i 1 = some next›
    omega
  · have := eq_of_add ‹add indexSize 2 len.toNat = some width›
    have := eq_of_add ‹add indexSize i width = some next›
    omega

section

variable {request : Bytes} {i : Nat}

/-- Indices near a byte of a request that fits in a ring do not overflow. -/
theorem add_near (short : request.length ≤ ringSize) {b : UInt8} (here : request[i]? = some b) (k : Nat)
    (near : k ≤ 257) : add indexSize i k = some (i + k) := by
  obtain ⟨inside, -⟩ := List.getElem?_eq_some_iff.mp here
  exact add_eq (by simp only [ringSize, indexSize] at *; omega)

/-- The walk at the code of an option, which looks at the length behind the code. -/
theorem messageType_option (short : request.length ≤ ringSize) {code : UInt8} (here : request[i]? = some code)
    (isCode : OptionCode code) : messageType request i = match request[i + 1]? with
      | none => some none
      | some len =>
        if code = typeOption ∧ 1 ≤ len.toNat then some request[i + 2]?
        else messageType request (i + 2 + len.toNat) := by
  rw [messageType, if_pos (List.getElem?_eq_some_iff.mp here).1]
  refine pass here ?_
  rw [if_neg isCode.1, if_neg isCode.2]
  refine pass (add_near short here 1 (by decide)) ?_
  split
  · rfl
  rename_i len _
  have byte := len.toNat_lt
  dsimp only
  split
  · exact pass (add_near short here 2 (by decide)) rfl
  · refine pass_attach (add_eq (by simp only [indexSize]; omega)) ?_
    refine pass_attach (add_near short here _ (show 2 + len.toNat ≤ 257 by omega)) ?_
    rw [Nat.add_assoc]

theorem messageType_eq (short : request.length ≤ ringSize) {found : Option UInt8}
    (walk : Finds request i found) : messageType request i = some found := by
  induction walk with
  | exhausted past =>
    rw [messageType, if_neg (Nat.not_lt.mpr (List.getElem?_eq_none_iff.mp past))]
    rfl
  | mark here =>
    rw [messageType, if_pos (List.getElem?_eq_some_iff.mp here).1]
    exact pass here rfl
  | pad here _ ih =>
    rw [messageType, if_pos (List.getElem?_eq_some_iff.mp here).1]
    exact pass here (pass_attach (add_near short here 1 (by decide)) ih)
  | unmeasured here isCode missing => rw [messageType_option short here isCode, missing]
  | decided here length some =>
    rw [messageType_option short here ⟨by decide, by decide⟩, length]
    exact if_pos ⟨rfl, some⟩
  | skipped here isCode length other _ ih =>
    rw [messageType_option short here isCode, length]
    exact (if_neg other).trans ih

end

/-- What the receive ring gets in answer to a request. -/
def respond (request : Bytes) (leased server : Ipv4) : Option Bytes := do
  let message := Vector.replicate messageSize 0
  let copied := min request.length fixedSize
  let message ← fill message 0 copied (← slice request 0 copied)
  let message ← put message 0 2
  let message ← fill message 16 20 leased.octets
  let message ← fill message 20 24 server.octets
  let message ← fill message fixedSize optionsStart cookie
  let kind := if (← messageType request optionsStart) = some discover then offer else ack
  let options := (replyOptions kind server).flatMap encodeOption ++ [255]
  let message ← fill message optionsStart (← add indexSize optionsStart options.length) options
  return receiveHeader ⟨server, dhcpServerPort⟩ messageSize ++ message.toList

/-- A field that is cut in two. -/
theorem field_append (request : Bytes) (start m n : Nat) :
    field request start (m + n) = field request start m ++ field request (start + m) n := by
  apply List.ext_getElem
  · simp only [List.length_append, length_field]
  intro j inside _
  rw [length_field] at inside
  apply Option.some.inj
  rw [← List.getElem?_eq_getElem, ← List.getElem?_eq_getElem, getElem?_field _ _ inside]
  by_cases first : j < m
  · rw [List.getElem?_append_left (by rwa [length_field]), getElem?_field _ _ first]
  · obtain ⟨k, rfl⟩ := Nat.exists_eq_add_of_le (Nat.not_lt.mp first)
    rw [List.getElem?_append_right (by rw [length_field]; omega), length_field, Nat.add_sub_cancel_left,
      getElem?_field _ _ (by omega), Nat.add_assoc]

/-- The front of a request in a buffer of zeros. -/
theorem take_append_zeros (request : Bytes) {len size : Nat} (fits : len ≤ size) :
    request.take len ++ List.replicate (size - min request.length len) 0 =
      field request 0 len ++ List.replicate (size - len) 0 := by
  have zeros : size - min request.length len = len - (request.take len).length + (size - len) := by
    rw [List.length_take]
    omega
  rw [field, List.drop_zero, List.append_assoc, List.replicate_append_replicate, zeros]

/-- The fixed fields of a request as a reply has them, piece by piece, with the rest of the buffer. -/
theorem fixed_pieces (request : Bytes) : field request 0 fixedSize ++ List.replicate 64 0 =
    field request 0 1 ++ (field request 1 15 ++ (field request 16 4 ++ (field request 20 4 ++ (field request 24 212 ++
      (List.replicate 4 0 ++ (List.replicate 22 0 ++ List.replicate 38 0)))))) := by
  rw [show fixedSize = 1 + (15 + (4 + (4 + 212))) from rfl, field_append, field_append, field_append, field_append]
  simp only [List.append_assoc]
  rfl

/-- The front of a request can be copied into an empty reply. -/
theorem fill_fixed (request : Bytes) : ∃ copied : Vector UInt8 messageSize,
    fill (Vector.replicate messageSize 0) 0 (min request.length fixedSize) (request.take fixedSize) = some copied ∧
      copied.toList = field request 0 fixedSize ++ List.replicate 64 0 := by
  have size : min request.length fixedSize + (messageSize - min request.length fixedSize) = messageSize := by
    simp only [fixedSize, messageSize]
    omega
  have blank : (Vector.replicate messageSize (0 : UInt8)).toList = [] ++
      (List.replicate (min request.length fixedSize) 0 ++
        List.replicate (messageSize - min request.length fixedSize) 0) := by
    rw [List.nil_append, List.replicate_append_replicate, size]
    rfl
  have present : (request.take fixedSize).length = min request.length fixedSize := by
    rw [List.length_take, Nat.min_comm]
  obtain ⟨copied, copy, fixed⟩ := fill_piece (request.take fixedSize) 0 _ blank rfl
    (by rw [List.length_replicate, present]) (by rw [Nat.zero_add, present])
  rw [List.nil_append, take_append_zeros request (show fixedSize ≤ messageSize by decide)] at fixed
  exact ⟨copied, copy, fixed⟩

theorem respond_eq {request : Bytes} (short : request.length ≤ ringSize) (leased server : Ipv4) :
    respond request leased server = some (Dhcp.respond request leased server) := by
  let options := (replyOptions (replyType request) server).flatMap encodeOption ++ [255]
  obtain ⟨copied, copy, fixed⟩ := fill_fixed request
  obtain ⟨operation, one⟩ := List.length_eq_one_iff.mp (length_field request 0 1)
  -- From here on every piece is written behind those that stand already, over as many bytes as it has.
  have marked : (copied.set 0 2).toList = ([2] ++ field request 1 15) ++ (field request 16 4 ++ (field request 20 4 ++
      (field request 24 212 ++ (List.replicate 4 0 ++ (List.replicate 22 0 ++ List.replicate 38 0))))) := by
    rw [Vector.toList_set, fixed, fixed_pieces, one]
    rfl
  obtain ⟨leaseSet, lease, withLease⟩ := fill_piece leased.octets 16 20 marked
    (by rw [List.length_append, length_field]; rfl) (length_field ..) rfl
  rw [← List.append_assoc] at withLease
  obtain ⟨serverSet, named, withServer⟩ := fill_piece server.octets 20 24 withLease
    (by simp only [List.length_append, length_field]; rfl) (length_field ..) rfl
  rw [← List.append_assoc, ← List.append_assoc] at withServer
  obtain ⟨cookieSet, parted, withCookie⟩ := fill_piece cookie fixedSize optionsStart withServer
    (by simp only [List.length_append, length_field]; rfl) rfl rfl
  rw [← List.append_assoc] at withCookie
  obtain ⟨complete, last, withOptions⟩ := fill_piece options optionsStart (optionsStart + options.length) withCookie
    (by simp only [List.length_append, length_field]; rfl) rfl rfl
  unfold respond
  refine pass (slice_capped ..) (pass copy (pass (put_eq _ 2 (by decide)) (pass lease (pass named (pass parted
    (pass (messageType_eq short (finds_typeInOptions request optionsStart)) (pass (add_eq ?_) (pass last ?_))))))))
  · show optionsStart + 22 < indexSize
    decide
  · show some (_ ++ complete.toList) = some (_ ++ replyMessage request leased server)
    rw [withOptions, replyMessage]
    simp only [List.append_assoc]
    rfl

/-! ## SNTP -/

/-- What the receive ring gets in answer to a request, if it is one packet. -/
def respondTime (request : Bytes) (server : Ipv4) (unixSeconds : Nat) : Option (Option Bytes) := do
  if packet : request.length = Sntp.packetSize then
    let message : Vector UInt8 (receiveHeaderSize + Sntp.packetSize) :=
      ⟨(receiveHeader ⟨server, ntpPort⟩ Sntp.packetSize ++ request).toArray, by simp [packet]⟩
    let stamp ← add indexSize receiveHeaderSize Sntp.transmitTimestamp
    let message ← fill message stamp (← add indexSize stamp 4) (Bytes.bigEndian 4 (Sntp.timestampSeconds unixSeconds))
    let message ← fill message (← add indexSize stamp 4) (← add indexSize stamp 8) [0, 0, 0, 0]
    return some message.toList
  else return none

theorem respondTime_eq (request : Bytes) (server : Ipv4) (unixSeconds : Nat) :
    respondTime request server unixSeconds = some (Sntp.respond? request server unixSeconds) := by
  unfold respondTime Sntp.respond?
  split
  · rename_i packet
    let header := receiveHeader ⟨server, ntpPort⟩ Sntp.packetSize
    let message : Vector UInt8 (receiveHeaderSize + Sntp.packetSize) :=
      ⟨(header ++ request).toArray, by simp [header, packet]⟩
    have whole : message.toList =
        (header ++ request.take 40) ++ ((request.drop 40).take 4 ++ (request.drop 40).drop 4) := by
      rw [List.take_append_drop, List.append_assoc, List.take_append_drop]
      rfl
    rw [Sntp.packetSize] at packet
    have upTo : (request.take 40).length = 40 := by
      rw [List.length_take]
      omega
    have rest : (request.drop 40).length = 8 := by
      rw [List.length_drop]
      omega
    let seconds := Bytes.bigEndian 4 (Sntp.timestampSeconds unixSeconds)
    obtain ⟨stamped, stamp, withSeconds⟩ := fill_piece seconds 48 52 whole
      (by rw [List.length_append, upTo]; rfl) (by rw [List.length_take, rest]; rfl) rfl
    rw [← List.append_assoc, ← List.append_nil ((request.drop 40).drop 4)] at withSeconds
    obtain ⟨complete, clear, withZeros⟩ := fill_piece [0, 0, 0, 0] 52 56 withSeconds
      (by rw [List.length_append, List.length_append, upTo]; rfl) (by rw [List.length_drop, rest]; rfl) rfl
    refine pass (add_eq (by decide)) (pass (add_eq (by decide)) (pass stamp (pass (add_eq (by decide))
      (pass (add_eq (by decide)) (pass clear ?_)))))
    show some (some complete.toList) = _
    rw [withZeros, List.append_nil]
    rfl
  · rfl

end EtherChip.Checked

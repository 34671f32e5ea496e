import EtherChip.Proofs.Socket.Unread

/-!
# The worst a stream can do

`Flood` is a host that connects every stream. The streams have as many bytes to give as they are asked
for, at every call, and take none. A socket on such a stream stays connected, and every poll fills its receive ring up to
the last byte that the room lets in.
-/
namespace EtherChip

/-- A host that always has more to give. -/
inductive Flood where
  | flood
  deriving Inhabited

instance : NetHost Flood where
  tcpSocket := return .ok ⟨0⟩
  udpSocket := return .ok ⟨0⟩
  setNonBlocking _ := return .ok ()
  setReuseAddress _ := return .ok ()
  bind _ _ := return .ok ()
  listen _ _ := return .ok ()
  connect _ _ := return .ok ()
  takeError _ := return .ok none
  peerName _ := return .ok ⟨⟨127, 0, 0, 1⟩, 80⟩
  setNoDelay _ := return .ok ()
  accept _ := return .error .eagain
  peek _ max := return .ok max
  read _ max := return .ok (List.replicate max 0)
  write _ _ := return .error .eagain
  peekFrom _ _ := return .error .eagain
  receiveFrom _ _ := return .error .eagain
  sendTo _ _ _ := return .error .eagain
  joinGroup _ _ _ := return .ok ()
  close _ := return ()
  localAddr _ _ := none
  clock _ := 0
  interruptions _ _ _ := 0
  interruptions_lt := nofun

theorem readsAtMost_flood : ReadsAtMost Flood := fun _ max => .pure fun bytes read => by
  obtain rfl := Except.ok.inj read
  exact Nat.le_of_eq List.length_replicate

namespace Engine

/-- A socket on an established stream. -/
def OnStream (e : Engine) : Prop := e.status = .established ∧ ∃ id, e.host = .stream id

theorem onStream_flush {e : Engine} (h : e.OnStream) : Always (e.flushStream : StateM Flood _) OnStream := by
  obtain ⟨status, id, host⟩ := h
  unfold flushStream
  split
  · exact .pure ⟨status, id, host⟩
  · rename_i stop _
    dsimp only
    split
    · exact .pure ⟨(status_completeSend _ stop).trans status, id, (host_completeSend _ stop).trans host⟩
    · have refused (data : Bytes) : (e.host.sendStream data : StateM Flood _) = pure (.ok 0) := by
        rw [host]
        funext net
        cases data with
        | nil => exact HostSocket.writeAll_nil id 0 net
        | cons b rest => exact HostSocket.writeAll_cons rfl
      rw [refused, pure_bind]
      dsimp only
      rw [if_pos (Nat.pos_of_ne_zero ‹_›), if_pos rfl]
      exact .pure ⟨status, id, host⟩

theorem receiveStream_flood (id : SocketId) (max : Nat) :
    ((HostSocket.stream id).receiveStream max : StateM Flood _) =
      pure (if max = 0 then .idle else .data (List.replicate max 0)) := by
  cases max <;> rfl

theorem onStream_deliver {e : Engine} (h : e.OnStream) (data : Bytes) : (e.deliver data).OnStream := by
  rw [deliver_eq]
  split <;> exact h

theorem onStream_poll {e : Engine} (h : e.OnStream) : Always (e.poll : StateM Flood _) OnStream := by
  unfold poll
  dsimp only
  rw [h.1]
  refine .bind (onStream_flush h) fun flushed on => ?_
  obtain ⟨id, host⟩ := on.2
  rw [pollStream, host, receiveStream_flood, pure_bind]
  by_cases full : e.rxRoom = 0
  · rw [if_pos full]
    exact .pure on
  · rw [if_neg full]
    exact .pure (onStream_deliver on _)

/-- **A flooded stream gives all that the room lets in.** -/
theorem length_polled_flood {e : Engine} (h : e.OnStream) (net : Flood) :
    ((e.polled? net).getD []).length = e.rxRoom := by
  obtain ⟨id, host⟩ := (onStream_flush h net).2
  have found : ((HostSocket.stream id).receiveStream e.rxRoom (e.flushStream net).2).1 =
      if e.rxRoom = 0 then StreamEvent.idle else .data (List.replicate e.rxRoom 0) := by
    rw [receiveStream_flood]
    rfl
  rw [polled?_established h.1, host, found]
  by_cases full : e.rxRoom = 0
  · rw [if_pos full, full]
    rfl
  · rw [if_neg full]
    exact List.length_replicate

theorem unread_poll_flood {e : Engine} (h : e.OnStream) (net : Flood) : (e.poll net).1.unread = ringSize - 1 := by
  have taken := length_polled_flood h net
  have room : e.rxRoom = ringSize - 1 - e.unread := rfl
  have short : e.unread < ringSize := RingOffset.distance_lt _ _
  have filled : e.unreadBytes.length + ((e.polled? net).getD []).length = ringSize - 1 := by
    rw [length_unreadBytes, taken, room]
    omega
  have holds := holds_poll readsAtMost_flood (.inl h.1) (holds_unreadBytes e) net (by rw [filled]; decide)
  have read : (e.poll net).1.rxRead = e.rxRead := congrArg RingOffset.ofWord (rxRead_poll e net)
  rw [← read] at holds
  have unread : (e.poll net).1.unread = _ := holds.distance_write
  rw [unread, List.length_append, filled]

end Engine

end EtherChip

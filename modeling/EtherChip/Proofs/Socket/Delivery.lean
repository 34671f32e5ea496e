import EtherChip.Proofs.Socket.Dispatch
import EtherChip.Proofs.Socket.Session

/-!
# Taking bytes into the receive ring

Bytes are taken in as a whole or not at all (`deliver_appends`). What is taken in stands behind the
unread bytes, wherever they lie in the ring; the last usable byte of it is filled too, and one cell
stays free so that a full ring is not taken for an empty one.
-/
namespace EtherChip

open RingOffset

/-- The bytes from one position up to another, around the end of the ring if need be. -/
def Ring.between (r : Ring) (start stop : RingOffset) : Bytes :=
  (List.range (distance start stop)).map fun i => r.get (start.advance i)

theorem Ring.length_between (r : Ring) (start stop : RingOffset) :
    (r.between start stop).length = distance start stop := by
  rw [Ring.between, List.length_map, List.length_range]

namespace Engine

open RegisterBank

theorem unreadBytes_eq_between (e : Engine) : e.unreadBytes = e.rx.between e.rxRead e.rxWrite := by
  rw [unreadBytes, unread, Ring.copyOut_of_le _ _ (Nat.le_of_lt (distance_lt _ _)), Ring.between]

/-- A socket that has taken bytes in. -/
structure TakenIn (e : Engine) (data : Bytes) (e' : Engine) : Prop where
  /-- The bytes stand behind the unread ones, from the same read position on. -/
  unread : e'.rx.between e'.rxRead e'.rxWrite = e.rx.between e.rxRead e.rxWrite ++ data
  rxRead : e'.rxRead = e.rxRead
  /-- Only the cells that they are stored in have changed. -/
  outside : ∀ o, data.length ≤ distance e.rxWrite o → e'.rx.get o = e.rx.get o
  received : (e'.regs.word Cell.rxReceived).toNat = distance e.rxRead e.rxWrite + data.length
  raised : e'.regs.get Cell.interrupt = e.regs.get Cell.interrupt ||| Interrupt.received
  cells : ∀ cell, cell ≠ Cell.interrupt → cell ≠ Cell.rxReceived ∧ cell ≠ Cell.rxReceived + 1 →
    e'.regs.get cell = e.regs.get cell
  tx : e'.tx = e.tx
  status : e'.status = e.status
  protocol : e'.protocol = e.protocol
  host : e'.host = e.host
  sendEnd : e'.sendEnd = e.sendEnd

theorem takenIn_appended {e : Engine} {data : Bytes} (fits : data.length ≤ e.rxRoom) :
    TakenIn e data (e.appended data) := by
  have total := length_unreadBytes_add_room e
  have small : data.length ≤ ringSize := by omega
  have written := Ring.written_copyIn e.rx e.rxWrite small
  obtain ⟨tx, status, protocol, host, sendEnd, -⟩ := kept_appended e data
  exact {
    unread := by rw [← unreadBytes_eq_between, ← unreadBytes_eq_between, unreadBytes_appended fits]
    rxRead := rxRead_appended e data
    outside := fun o past => by
      refine (written o).trans ?_
      rw [List.getElem?_eq_none past, Option.getD_none]
    received := received_appended fits
    raised := interrupt_appended e data
    cells := fun cell => get_appended e data
    tx, status, protocol, host, sendEnd }

/-- **Delivery.** For every socket, with any registers and any rings, and for bytes of any length: as
long as all of them leave one cell of the ring free they are taken in, and otherwise the socket stays as
it is. -/
theorem deliver_appends (e : Engine) (data : Bytes) :
    if (e.rx.between e.rxRead e.rxWrite).length + data.length ≤ 2047 then
      ∃ e', e.deliver? data = some e' ∧ e.deliver data = e' ∧ TakenIn e data e'
    else e.deliver? data = none ∧ e.deliver data = e := by
  have room : e.rxRoom = 2047 - distance e.rxRead e.rxWrite := rfl
  have short := distance_lt e.rxRead e.rxWrite
  rw [Ring.length_between]
  split
  · have fits : data.length ≤ e.rxRoom := by omega
    have taken : e.deliver? data = some (e.appended data) := if_neg (Nat.not_lt.mpr fits)
    exact ⟨e.appended data, taken, by rw [deliver_eq, if_pos fits], takenIn_appended fits⟩
  · have large : e.rxRoom < data.length := by
      have : distance e.rxRead e.rxWrite < 2048 := short
      omega
    exact ⟨if_pos large, by rw [deliver_eq, if_neg (Nat.not_le.mpr large)]⟩

/-- Around the end of the ring, up to the last usable byte and no further. -/
example :
    let e : Engine := { rxWrite := .ofNat 2045, regs := RegisterBank.powerOn.setWord Cell.rxRead 2040 }
    ((e.deliver? (List.replicate 2042 7)).map fun e' => (e'.regs.word Cell.rxReceived, e'.rxWrite.val)) =
        some (2047, 2039) ∧
      e.deliver? (List.replicate 2043 7) = none := by
  decide +kernel

end Engine

end EtherChip

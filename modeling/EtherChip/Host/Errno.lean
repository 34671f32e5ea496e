/-!
# Failures of host calls

Codes with which an operating system refuses a socket call, and the failures that the socket layer
above it finds by itself.
-/
namespace EtherChip

inductive Errno where
  | eacces | eaddrinuse | eaddrnotavail | eafnosupport | eagain | ealready | ebadf | econnaborted
  | econnrefused | econnreset | edestaddrreq | efault | ehostdown | ehostunreach | einprogress
  | eintr | einval | eio | eisconn | emfile | emsgsize | enetdown | enetreset | enetunreach | enfile
  | enobufs | enodev | enoent | enomem | enoprotoopt | enotconn | enotsock | eopnotsupp | eperm
  | epipe | eproto | eprotonosupport | eprototype | eshutdown | etimedout
  deriving DecidableEq, Repr

/-- Why an operation on a host socket fails. -/
inductive HostError where
  | os (code : Errno)
  /-- LISTEN or CONNECT without an unconnected stream socket. -/
  | notOpen
  /-- Joining a group without a datagram socket. -/
  | notDatagram
  /-- Sending on a stream that is not connected. -/
  | noStream
  /-- Sending a datagram without a datagram socket. -/
  | noDatagramSocket
  /-- The operating system took no byte of a write. -/
  | writeZero
  deriving DecidableEq, Repr

/-- Wording of a failure that the socket layer finds by itself. -/
def HostError.message? : HostError → Option String
  | os _ => none
  | notOpen => some "host socket is not open"
  | notDatagram => some "host socket is not a datagram socket"
  | noStream => some "no connected stream"
  | noDatagramSocket => some "no datagram socket"
  | writeZero => some "write zero"

end EtherChip

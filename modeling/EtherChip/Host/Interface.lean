import EtherChip.Host.Errno
import EtherChip.Net.Address

/-!
# What a chip asks of its host

The sockets of a chip are backed by sockets of a host. `NetHost ν` lists the calls that are made,
each as a state change of a host of type `ν`. A socket that has been made non-blocking refuses what
would have to wait with `eagain`, or with `einprogress` for a connection that has been started. The
host gives out an identity for every socket that it creates or accepts, and takes it back when the
socket is closed.

A signal can interrupt a write before anything was taken. How often that happens in a row is up to
the host, but it comes to an end: `interruptions` bounds it.
-/
namespace EtherChip

/-- Identity that a host gives to a socket. -/
structure SocketId where
  index : Nat
  deriving DecidableEq, Repr

/-- Socket calls of a host whose state has type `ν`. -/
class NetHost (ν : Type) where
  /-- New unbound stream socket. -/
  tcpSocket : StateM ν (Except Errno SocketId)
  /-- New unbound datagram socket. -/
  udpSocket : StateM ν (Except Errno SocketId)
  /-- Binds a socket to a local endpoint; port 0 asks for any free port. -/
  bind : SocketId → Endpoint → StateM ν (Except Errno Unit)
  /-- Makes a bound stream socket accept up to the given number of waiting connections. -/
  listen : SocketId → Nat → StateM ν (Except Errno Unit)
  /-- Starts a connection. -/
  connect : SocketId → Endpoint → StateM ν (Except Errno Unit)
  /-- Takes the pending failure of a socket, if there is one. -/
  takeError : SocketId → StateM ν (Except Errno (Option Errno))
  /-- The other end of a connected stream. -/
  peerName : SocketId → StateM ν (Except Errno Endpoint)
  /-- Makes the calls on a socket answer at once. -/
  setNonBlocking : SocketId → StateM ν (Except Errno Unit)
  /-- Lets a socket be bound to an endpoint that was in use a short time ago. -/
  setReuseAddress : SocketId → StateM ν (Except Errno Unit)
  /-- Makes a stream send small segments at once. -/
  setNoDelay : SocketId → StateM ν (Except Errno Unit)
  /-- Takes the oldest waiting connection of a listening socket, with its other end. An attempt that
  a signal interrupts is made again. -/
  accept : SocketId → StateM ν (Except Errno (SocketId × Endpoint))
  /-- How many of the given number of bytes wait in a stream; zero once the other end has closed. -/
  peek : SocketId → Nat → StateM ν (Except Errno Nat)
  /-- Takes at most the given number of bytes from a stream; none once the other end has closed. -/
  read : SocketId → Nat → StateM ν (Except Errno Bytes)
  /-- Hands bytes to a stream and tells how many from the front were taken; `eintr` if a signal
  came before that. -/
  write : SocketId → Bytes → StateM ν (Except Errno Nat)
  /-- How often in a row a signal interrupts the writing of these bytes, at most. -/
  interruptions : SocketId → Bytes → ν → Nat
  /-- After an interruption there are fewer to come. -/
  interruptions_lt {id : SocketId} {data : Bytes} {net : ν} (interrupted : (write id data net).1 = .error .eintr) :
    interruptions id data (write id data net).2 < interruptions id data net
  /-- Length of the oldest waiting datagram, at most the given one. -/
  peekFrom : SocketId → Nat → StateM ν (Except Errno Nat)
  /-- Takes the oldest waiting datagram, cut to the given length, with its sender. -/
  receiveFrom : SocketId → Nat → StateM ν (Except Errno (Bytes × Endpoint))
  /-- Sends a datagram. -/
  sendTo : SocketId → Bytes → Endpoint → StateM ν (Except Errno Unit)
  /-- Joins a multicast group on the interface with the given address. -/
  joinGroup : SocketId → Ipv4 → Ipv4 → StateM ν (Except Errno Unit)
  /-- Closes a socket. -/
  close : SocketId → StateM ν Unit
  /-- Local endpoint of a socket. -/
  localAddr : ν → SocketId → Option Endpoint
  /-- Wall clock in Unix seconds. -/
  clock : ν → Nat

end EtherChip

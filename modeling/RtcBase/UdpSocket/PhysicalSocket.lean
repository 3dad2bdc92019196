import RtcBase.Networks.SockaddrStorage
import RtcBase.UdpSocket.SendQueue

/-! `PhysicalSocket` and the receiving half of `AsyncUDPSocket`. System calls are what they return
and leave behind: a number and `errno`, and for `recvfrom` the buffer and the name of the sender.
-/

namespace RtcBase.UdpSocket

open Library
open Networks (SocketAddress)

/-- `INVALID_SOCKET`. -/
def invalidSocket : Int := -1

/-- `is_blocking_error`, with `EWOULDBLOCK`, `EAGAIN` and `EINPROGRESS` of Linux. -/
def isBlockingError (e : Int) : Bool := e = 11 || e = 11 || e = 115

/-- The fields of `PhysicalSocket`. -/
structure PhysicalSocket where
  s : Int
  udp : Bool
  error : Int
  deriving DecidableEq, Repr

/-- What a system call returns, and `errno` after it. -/
structure SystemResult where
  value : Int
  errno : Int
  deriving DecidableEq, Repr

namespace PhysicalSocket

def setError (socket : PhysicalSocket) (error : Int) : PhysicalSocket :=
  { socket with error := error }

def getError (socket : PhysicalSocket) : Int := socket.error

/-- `PhysicalSocket::update_last_error`. -/
def updateLastError (socket : PhysicalSocket) (errno : Int) : PhysicalSocket :=
  socket.setError errno

/-- The results of `send_to` and `recv_from`: nothing done when the call would block, and an error
for any other failure and for a transfer of no bytes.
-/
def transferred (socket : PhysicalSocket) (value : Int) : Int :=
  if value < 0 then if isBlockingError socket.getError then 0 else -1
  else if value = 0 then -1
  else value

/-- `PhysicalSocket::send_to`, around the system's `sendto`. -/
def sendTo (socket : PhysicalSocket) (sent : SystemResult) : PhysicalSocket × Int :=
  let socket := socket.updateLastError sent.errno
  (socket, socket.transferred sent.value)

/-- `PhysicalSocket::recv_from` into an address, around the system's `recvfrom` and the name that it
left in the storage.
-/
def recvFrom (host : ByteBuffer.Host) (memory : BitVec 16) (socket : PhysicalSocket)
    (received : SystemResult) (addrStorage : List Byte) (outAddr : SocketAddress)
    : PhysicalSocket × Int × SocketAddress :=
  let socket := socket.updateLastError received.errno
  let outAddr :=
    if received.value ≥ 0 then (SocketAddress.ofSockaddrStorage host memory addrStorage outAddr).2
    else outAddr
  (socket, socket.transferred received.value, outAddr)

end PhysicalSocket

/-- The length that the system's `sendto` gets, which is cast to `int`. -/
def sendLength (data : List Byte) : Int := (BitVec.ofNat 32 data.length).toInt

/-- What `PhysicalSocket::send_to` makes of what the system's `sendto` returned. -/
def SendOutcome.ofResult (result : Int) : SendOutcome :=
  if result = -1 then .error else if result = 0 then .zero else .bytes (result - 1).toNat

/-- The outcome is what `send_to` returns, which is never below -1. -/
theorem value_ofResult (socket : PhysicalSocket) (sent : SystemResult)
    : (SendOutcome.ofResult (socket.sendTo sent).2).value = (socket.sendTo sent).2 := by
  have lowest : -1 ≤ (socket.sendTo sent).2 := by
    simp only [PhysicalSocket.sendTo, PhysicalSocket.transferred]
    split_ifs <;> omega
  unfold SendOutcome.ofResult
  split_ifs with isError isZero
  · rw [isError]
    rfl
  · rw [isZero]
    rfl
  · simp only [SendOutcome.value]
    omega

/-- `PacketTime`. -/
structure PacketTime where
  timestamp : Int
  notBefore : Int
  deriving DecidableEq, Repr

/-- `get_socket_recv_timestamp`: the `timeval` of the last packet in microseconds, if there is
one.
-/
def getSocketRecvTimestamp (tvIoctl : Option (Int × Int)) : Int :=
  match tvIoctl with
  | none => -1
  | some tv => 1000000 * tv.1 + tv.2

/-- The arguments of `signal_read_packet`. -/
structure ReadPacket where
  data : List Byte
  remoteAddr : SocketAddress
  packetTime : PacketTime
  deriving DecidableEq, Repr

/-- `BUF_SIZE`. -/
def bufSize : Nat := 64 * 1024

/-- What `recv_data` finds: the result of `recvfrom`, the buffer and the storage for the name after
it, the memory that the new address is built in, the time stamp of the packet and the clock.
-/
structure Receipt where
  received : SystemResult
  buf : List Byte
  addrStorage : List Byte
  memory : BitVec 16
  tvIoctl : Option (Int × Int)
  timeMicros : Int
  deriving DecidableEq, Repr

/-- `AsyncUDPSocket::recv_data`: the socket after it and the packet that it signals, if it does. -/
def recvData (host : ByteBuffer.Host) (socket : PhysicalSocket) (receipt : Receipt)
    : PhysicalSocket × Option ReadPacket :=
  let result :=
    socket.recvFrom host receipt.memory receipt.received receipt.addrStorage SocketAddress.nil
  let timestamp := getSocketRecvTimestamp receipt.tvIoctl
  let len := result.2.1
  if len < 0 then (result.1, none)
  else if 0 = len then (result.1, none)
  else
    (result.1,
      some
        { data := receipt.buf.take len.toNat
          remoteAddr := result.2.2
          packetTime := if timestamp > -1 then ⟨timestamp, 0⟩ else ⟨receipt.timeMicros, 0⟩ })

end RtcBase.UdpSocket

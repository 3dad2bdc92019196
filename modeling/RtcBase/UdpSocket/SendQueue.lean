import RtcBase.EventLoop.IoEvents
import RtcBase.Library.SortedMap
import RtcBase.Networks.SocketAddress

/-! The send queue of `AsyncUDPSocket`. `send_to` enqueues a packet under the text of its address and
asks for writable events; `send_data` drains the queue in rounds over the addresses. While a round
is suspended in `signal_sent_packet`, handlers may call `send_to` again.
-/

namespace RtcBase.UdpSocket

open Library
open EventLoop (IOWatcher IoEvent Mask)
open Networks (AddressFamily SocketAddress Text)

/-- A `UdpPacketData` object. Its number tells it from every other packet ever accepted. -/
structure UdpPacketData where
  number : Nat
  data : List Byte
  addr : SocketAddress
  deriving DecidableEq, Repr

/-- What the socket's `send_to` returns: an error, nothing sent, or a number of bytes. -/
inductive SendOutcome where
  | error
  | zero
  | bytes (count : Nat)
  deriving DecidableEq, Repr

/-- The returned `int`. -/
def SendOutcome.value : SendOutcome → Int
  | .error => -1
  | .zero => 0
  | .bytes count => count + 1

/-- The fields of `AsyncUDPSocket` that sending uses, with the descriptor of the socket below. The
counter is an `int`, which wraps where it overflows.
-/
structure AsyncUDPSocket where
  fd : Int
  socketWatcher : IOWatcher
  udpDataSendMap : Std.ExtTreeMap Text (List UdpPacketData)
  totalSendData : BitVec 32

namespace AsyncUDPSocket

/-- `AsyncUDPSocket::enable_events`. -/
def enableEvents (socket : AsyncUDPSocket) (events : Mask) : AsyncUDPSocket :=
  { socket with socketWatcher := socket.socketWatcher.startIoEvent socket.fd events }

/-- `AsyncUDPSocket::disable_events`. -/
def disableEvents (socket : AsyncUDPSocket) (events : Mask) : AsyncUDPSocket :=
  { socket with socketWatcher := socket.socketWatcher.stopIoEvent socket.fd events }

/-- The constructor, on a watcher that `ev_init` left inactive and otherwise as it was in memory. -/
def construct (fd : Int) (memory : IOWatcher) : AsyncUDPSocket :=
  enableEvents
    { fd := fd
      socketWatcher := { memory with active := false }
      udpDataSendMap := ∅
      totalSendData := 0 }
    IoEvent.read.mask

/-- The packets that wait for an address. -/
def packetList (socket : AsyncUDPSocket) (key : Text) : List UdpPacketData :=
  socket.udpDataSendMap[key]?.getD []

/-- `AsyncUDPSocket::add_udp_send_data`, with the size that it returns. -/
def addUdpSendData (inetNtop : AddressFamily → List Byte → Option Text) (socket : AsyncUDPSocket)
    (packetData : UdpPacketData)
    : AsyncUDPSocket × BitVec 32 :=
  let key := packetData.addr.toText inetNtop
  let queued : AsyncUDPSocket :=
    { socket with
      udpDataSendMap := socket.udpDataSendMap.insert key (socket.packetList key ++ [packetData])
      totalSendData := socket.totalSendData + 1 }
  (queued.enableEvents IoEvent.write.mask, BitVec.ofNat 32 packetData.data.length)

/-- Remove the first packet that waits for an address. -/
def popFront (socket : AsyncUDPSocket) (key : Text) : AsyncUDPSocket :=
  { socket with
    udpDataSendMap := socket.udpDataSendMap.insert key (socket.packetList key).tail
    totalSendData := socket.totalSendData - 1 }

/-- `AsyncUDPSocket::close`, as far as events go. -/
def close (socket : AsyncUDPSocket) : AsyncUDPSocket :=
  socket.disableEvents (IoEvent.read.mask ||| IoEvent.write.mask)

end AsyncUDPSocket

/-- Where `send_data` is: not running, at the condition of its outer loop, at the entry that its
iterator points to or at the end, or inside `signal_sent_packet` for an entry.
-/
inductive Control where
  | idle
  | condition
  | visiting (iter : Option Text)
  | signalling (key : Text)
  deriving DecidableEq, Repr

/-- The key of the entry that the iterator of `send_data` points to. -/
def Control.key? : Control → Option Text
  | .visiting iter => iter
  | .signalling key => some key
  | _ => none

/-- A socket in use, with the packets accepted so far and what became of each attempt to send. -/
structure Sending where
  socket : AsyncUDPSocket
  control : Control
  accepted : List UdpPacketData
  attempts : List (UdpPacketData × SendOutcome)

/-- What can happen: a call of `send_to` or `close`, a writable event, or the next step of
`send_data` with the outcome of an attempt if it makes one.
-/
inductive Action where
  | sendTo (data : List Byte) (addr : SocketAddress)
  | writable
  | proceed (sent : SendOutcome)
  | close
  deriving DecidableEq, Repr

namespace Sending

/-- A new socket. -/
def start (fd : Int) (memory : IOWatcher) : Sending where
  socket := .construct fd memory
  control := .idle
  accepted := []
  attempts := []

/-- Other code runs: `send_data` is not running or is in a signal. -/
def calling (state : Sending) : Bool :=
  match state.control with
  | .idle => true
  | .signalling _ => true
  | _ => false

/-- `AsyncUDPSocket::send_to`. -/
def sendTo (inetNtop : AddressFamily → List Byte → Option Text) (state : Sending)
    (data : List Byte) (addr : SocketAddress)
    : Sending :=
  let packetData : UdpPacketData := ⟨state.accepted.length, data, addr⟩
  { state with
    socket := (state.socket.addUdpSendData inetNtop packetData).1
    accepted := state.accepted ++ [packetData] }

/-- An attempt to send the first packet of an entry: it is removed unless nothing was sent, and the
round goes on only when something was.
-/
def attempt (state : Sending) (key : Text) (packetData : UdpPacketData) (sent : SendOutcome)
    : Sending :=
  let attempts := state.attempts ++ [(packetData, sent)]
  if -1 = sent.value then
    { state with socket := state.socket.popFront key, control := .idle, attempts := attempts }
  else if 0 = sent.value then { state with control := .idle, attempts := attempts }
  else
    { state with
      socket := state.socket.popFront key
      control := .signalling key
      attempts := attempts }

/-- The next step of `send_data`. -/
def proceed (state : Sending) (sent : SendOutcome) : Sending :=
  match state.control with
  | .idle => state
  | .condition =>
      if 0 < state.socket.totalSendData.toInt then
        { state with control := .visiting (firstKey state.socket.udpDataSendMap) }
      else if state.socket.totalSendData.toInt ≤ 0 then
        { state with
          socket := state.socket.disableEvents IoEvent.write.mask
          control := .idle }
      else { state with control := .idle }
  | .visiting none => { state with control := .condition }
  | .visiting (some key) =>
      match state.socket.packetList key with
      | [] => { state with control := .visiting (nextKey state.socket.udpDataSendMap key) }
      | packetData :: _ => state.attempt key packetData sent
  | .signalling key =>
      { state with control := .visiting (nextKey state.socket.udpDataSendMap key) }

/-- What an action does. A call is made only while other code runs, and a writable event is handled
only when `send_data` is not running.
-/
def step (inetNtop : AddressFamily → List Byte → Option Text) (state : Sending) : Action → Sending
  | .sendTo data addr => if state.calling then state.sendTo inetNtop data addr else state
  | .writable => if state.control = .idle then { state with control := .condition } else state
  | .proceed sent => state.proceed sent
  | .close => if state.calling then { state with socket := state.socket.close } else state

end Sending

end RtcBase.UdpSocket

import RtcBase.Library.Interleaving
import RtcBase.UdpSocket.Draining
import RtcBase.UdpSocket.PhysicalSocket

/-! Datagrams from one `AsyncUDPSocket` to another. Any number of sockets, each bound to an address,
send through their queues onto a network that may lose, delay, reorder and duplicate datagrams, and
read what arrives for them.
-/

namespace RtcBase.UdpSocket

open Library
open EventLoop (IOWatcher IoEvent)
open Networks (AddressFamily SocketAddress Text)

variable {θ : Type*}

/-- A datagram on its way, by the socket and the packet that it came from. -/
structure Flight (θ : Type*) where
  sender : θ
  packet : UdpPacketData
  deriving DecidableEq

/-- The bytes that the system's `sendto` was given. -/
def Flight.data (flight : Flight θ) : List Byte :=
  flight.packet.data.take (sendLength flight.packet.data).toNat

/-- A socket with its receive buffer, the datagrams that the system holds for it and all that ever
arrived.
-/
structure Endpoint (θ : Type*) where
  sending : Sending
  physical : PhysicalSocket
  buf : List Byte
  inbox : List (Flight θ)
  arrived : List (Flight θ)

/-- The sockets and all datagrams that were ever sent. -/
structure Internet (θ : Type*) where
  endpoints : θ → Endpoint θ
  wire : List (Flight θ)

/-- What a call of `recv_data` finds apart from the datagram. -/
structure Surroundings where
  errno : Int
  garbage : List Byte
  memory : BitVec 16
  tvIoctl : Option (Int × Int)
  timeMicros : Int
  deriving DecidableEq, Repr

/-- What can happen: a call of `send_to`, a writable event, the next step of `send_data` with what
the system's `sendto` returns, the arrival of a datagram, and a readable event for which the
system's `recvfrom` takes a datagram or fails.
-/
inductive Happening (θ : Type*) where
  | sendTo (socket : θ) (data : List Byte) (addr : SocketAddress)
  | writable (socket : θ)
  | proceed (socket : θ) (sent : SystemResult)
  | arrive (socket : θ) (flight : Flight θ)
  | readable (socket : θ) (around : Surroundings)
  | unreadable (socket : θ) (around : Surroundings)

/-- The packet that the next step of `send_data` tries to send. -/
def Sending.attempted (state : Sending) : Option UdpPacketData :=
  match state.control with
  | .visiting (some key) => (state.socket.packetList key).head?
  | _ => none

section System

variable [DecidableEq θ] (inetNtop : AddressFamily → List Byte → Option Text)
variable (host : ByteBuffer.Host) (address : θ → SocketAddress)

/-- A new socket on an open descriptor. -/
def Endpoint.start (physical : PhysicalSocket) (memory : IOWatcher) (buf : List Byte)
    : Endpoint θ where
  sending := .start physical.s memory
  physical := physical
  buf := buf
  inbox := []
  arrived := []

/-- What the system's `recvfrom` leaves behind when it takes a datagram: as much of it as fits the
buffer, and the name of the sender in front of what the storage held.
-/
def Endpoint.taking (endpoint : Endpoint θ) (flight : Flight θ) (around : Surroundings)
    : Receipt :=
  let stored := flight.data.take bufSize
  { received := ⟨stored.length, around.errno⟩
    buf := stored ++ endpoint.buf.drop stored.length
    addrStorage := (address flight.sender).sockaddr host ++ around.garbage
    memory := around.memory
    tvIoctl := around.tvIoctl
    timeMicros := around.timeMicros }

/-- What it leaves behind when it fails. -/
def Endpoint.failing (endpoint : Endpoint θ) (around : Surroundings) : Receipt where
  received := ⟨-1, around.errno⟩
  buf := endpoint.buf
  addrStorage := around.garbage
  memory := around.memory
  tvIoctl := around.tvIoctl
  timeMicros := around.timeMicros

/-- The socket is not in `send_data`, and the event loop watches the event for it. -/
def Endpoint.ready (endpoint : Endpoint θ) (event : IoEvent) : Bool :=
  endpoint.sending.control = .idle ∧ event ∈ endpoint.sending.socket.socketWatcher.watched

/-- One socket changes, and datagrams go onto the network. -/
def Internet.update (net : Internet θ) (socket : θ) (next : Endpoint θ) (flights : List (Flight θ))
    : Internet θ where
  endpoints := Function.update net.endpoints socket next
  wire := net.wire ++ flights

/-- What happens, with the packets that are signalled. -/
def Internet.step (net : Internet θ)
    : Happening θ → Option (Internet θ × List (θ × ReadPacket))
  | .sendTo socket data addr =>
      let endpoint := net.endpoints socket
      if endpoint.sending.calling then
        let sending := endpoint.sending.step inetNtop (.sendTo data addr)
        some (net.update socket { endpoint with sending := sending } [], [])
      else none
  | .writable socket =>
      let endpoint := net.endpoints socket
      if endpoint.ready .write then
        let sending := endpoint.sending.step inetNtop .writable
        some (net.update socket { endpoint with sending := sending } [], [])
      else none
  | .proceed socket sent =>
      let endpoint := net.endpoints socket
      if endpoint.sending.control ≠ .idle then
        let result := endpoint.physical.sendTo sent
        let sending := endpoint.sending.step inetNtop (.proceed (.ofResult result.2))
        let attempted := endpoint.sending.attempted
        let physical := if attempted.isSome then result.1 else endpoint.physical
        let flights := if 0 ≤ sent.value then attempted.toList.map (Flight.mk socket) else []
        some (net.update socket { endpoint with sending := sending, physical := physical } flights,
          [])
      else none
  | .arrive socket flight =>
      let endpoint := net.endpoints socket
      if flight ∈ net.wire ∧ flight.packet.addr.sockaddr host = (address socket).sockaddr host then
        let next :=
          { endpoint with
            inbox := endpoint.inbox ++ [flight]
            arrived := endpoint.arrived ++ [flight] }
        some (net.update socket next [], [])
      else none
  | .readable socket around =>
      let endpoint := net.endpoints socket
      match endpoint.inbox with
      | [] => none
      | flight :: rest =>
          if endpoint.ready .read then
            let receipt := endpoint.taking host address flight around
            let result := recvData host endpoint.physical receipt
            let next := { endpoint with physical := result.1, buf := receipt.buf, inbox := rest }
            some (net.update socket next [], result.2.toList.map (Prod.mk socket))
          else none
  | .unreadable socket around =>
      let endpoint := net.endpoints socket
      if endpoint.ready .read then
        let result := recvData host endpoint.physical (endpoint.failing around)
        some (net.update socket { endpoint with physical := result.1 } [],
          result.2.toList.map (Prod.mk socket))
      else none

end System

-----------------------------------------------------------------------------------------
-- Reading
-----------------------------------------------------------------------------------------

/-- What a socket should be told of a datagram: nothing if it is empty, else as much as the buffer
holds and the address that the sender is bound to.
-/
def Flight.expected (address : θ → SocketAddress) (flight : Flight θ)
    : Option (List Byte × SocketAddress) :=
  if flight.packet.data = [] then none
  else some (flight.packet.data.take bufSize, (address flight.sender).numeric)

/-- The bytes and the address that are signalled. -/
def ReadPacket.content (packet : ReadPacket) : List Byte × SocketAddress :=
  (packet.data, packet.remoteAddr)

/-- Addresses that sockets are bound to: of a family, with a scope that an `int` holds. -/
structure Bindable (address : SocketAddress) : Prop where
  specified : address.ip ≠ .unspec
  scope : -2 ^ 31 ≤ address.scopeId ∧ address.scopeId < 2 ^ 31

/-- The system is given all bytes of a packet that is not too long for an `int`. -/
theorem Flight.data_eq {flight : Flight θ} (small : flight.packet.data.length < 2 ^ 31)
    : flight.data = flight.packet.data := by
  have value : (BitVec.ofNat 32 flight.packet.data.length).toNat = flight.packet.data.length := by
    rw [BitVec.toNat_ofNat]
    exact Nat.mod_eq_of_lt (by omega)
  have length : sendLength flight.packet.data = flight.packet.data.length := by
    rw [sendLength, BitVec.toInt_eq_toNat_of_lt (by omega), value]
  rw [Flight.data, length, Int.toNat_natCast, List.take_length]

/-- A failed `recvfrom` signals nothing. -/
theorem recvData_failing (host : ByteBuffer.Host) (endpoint : Endpoint θ) (around : Surroundings)
    : (recvData host endpoint.physical (endpoint.failing around)).2 = none := by
  simp only [recvData, PhysicalSocket.recvFrom, PhysicalSocket.transferred, Endpoint.failing]
  split_ifs <;> simp_all

/-- A datagram that `recvfrom` takes is signalled with its bytes and its sender's address. -/
theorem recvData_taking (host : ByteBuffer.Host) {address : θ → SocketAddress}
    (endpoint : Endpoint θ) {flight : Flight θ} (bound : Bindable (address flight.sender))
    (small : flight.packet.data.length < 2 ^ 31) (around : Surroundings)
    : (recvData host endpoint.physical (endpoint.taking host address flight around)).2.map
        ReadPacket.content
      = flight.expected address := by
  have remote :=
    (SocketAddress.sockaddr_holds host bound.specified around.garbage).read bound.specified
      bound.scope around.memory SocketAddress.nil
  simp only [recvData, PhysicalSocket.recvFrom, PhysicalSocket.transferred, Endpoint.taking,
    Flight.data_eq small, remote, Flight.expected]
  by_cases empty : flight.packet.data = []
  · simp [empty]
  · have positive : 0 < (flight.packet.data.take bufSize).length := by
      rw [List.length_take]
      exact Nat.lt_min.mpr ⟨by decide, List.length_pos_iff.mpr empty⟩
    rw [if_neg (by omega : ¬ ((flight.packet.data.take bufSize).length : Int) < 0),
      if_neg (by omega : ¬ ((flight.packet.data.take bufSize).length : Int) = 0),
      if_neg (by omega), if_neg (by omega), if_neg empty]
    simp only [Option.map_some, ReadPacket.content, Int.toNat_natCast, List.take_left,
      if_pos (by omega : ((flight.packet.data.take bufSize).length : Int) ≥ 0)]

-----------------------------------------------------------------------------------------
-- Sending
-----------------------------------------------------------------------------------------

/-- A step of `send_data` accepts nothing, and the packet it tries to send leaves the queue unless
the socket would block, by cases on where the step is.
-/
theorem departed_proceed (state : Sending) (sent : SendOutcome)
    : (state.proceed sent).accepted = state.accepted
      ∧ (state.proceed sent).departed
        = state.departed ++ if sent = .zero then [] else state.attempted.toList := by
  cases control : state.control with
  | idle => simp [Sending.proceed, Sending.attempted, control]
  | condition =>
      simp only [Sending.proceed, Sending.attempted, control]
      split_ifs <;> simp [Sending.departed]
  | visiting iter =>
      cases iter with
      | none => simp [Sending.proceed, Sending.attempted, control, Sending.departed]
      | some key =>
          simp only [Sending.proceed, Sending.attempted, control]
          cases waiting : state.socket.packetList key with
          | nil => simp [Sending.departed]
          | cons packetData rest =>
              cases sent with
              | error => simp [Sending.attempt, SendOutcome.value, Sending.departed, leaves]
              | zero => simp [Sending.attempt, SendOutcome.value, Sending.departed, leaves]
              | bytes count => simp [attempt_bytes, Sending.departed, leaves]
  | signalling key => simp [Sending.proceed, Sending.attempted, control, Sending.departed]

/-- A packet that the system took did not block. -/
theorem ofResult_ne_zero (socket : PhysicalSocket) {sent : SystemResult} (taken : 0 ≤ sent.value)
    : SendOutcome.ofResult (socket.sendTo sent).2 ≠ .zero := by
  have notNegative : ¬ sent.value < 0 := by omega
  simp only [PhysicalSocket.sendTo, PhysicalSocket.transferred, SendOutcome.ofResult,
    if_neg notNegative]
  split_ifs <;> simp_all

/-- No packet leaves twice, and those to one destination leave in the order of the calls. -/
theorem Accounted.departed {inetNtop : AddressFamily → List Byte → Option Text} {state : Sending}
    (accounted : Accounted inetNtop state)
    : state.departed.Nodup
      ∧ state.departed ⊆ state.accepted
      ∧ ∀ key, addressedTo inetNtop key state.departed <+: addressedTo inetNtop key state.accepted
    := by
  have ordered (key : Text)
      : addressedTo inetNtop key state.departed <+: addressedTo inetNtop key state.accepted :=
    ⟨_, (accounted.fifo key).symm⟩
  have own (packets : List UdpPacketData) (packet : UdpPacketData)
      : (addressedTo inetNtop (packet.addr.toText inetNtop) packets).count packet
        = packets.count packet :=
    List.count_filter (decide_eq_true rfl)
  have counted (packet : UdpPacketData) : state.departed.count packet ≤ state.accepted.count packet
      := by
    rw [← own, ← own state.accepted]
    exact (ordered _).sublist.count_le packet
  refine ⟨?_, ?_, ordered⟩
  · rw [List.nodup_iff_count_le_one]
    intro packet
    exact (counted packet).trans (List.nodup_iff_count_le_one.mp accounted.nodup packet)
  · intro packet member
    exact List.count_pos_iff.mp ((List.count_pos_iff.mpr member).trans_le (counted packet))

-----------------------------------------------------------------------------------------
-- From end to end
-----------------------------------------------------------------------------------------

section Delivery

variable [DecidableEq θ]

/-- The packets of a socket that went onto the network, in order. -/
def Internet.flown (net : Internet θ) (socket : θ) : List UdpPacketData :=
  (net.wire.filter fun flight => flight.sender = socket).map Flight.packet

/-- What was signalled at a socket, in order. -/
def signalled (socket : θ) (history : List (θ × ReadPacket)) : List (List Byte × SocketAddress) :=
  (history.filter fun signal => signal.1 = socket).map fun signal => signal.2.content

variable (inetNtop : AddressFamily → List Byte → Option Text) (host : ByteBuffer.Host)
variable (address : θ → SocketAddress)

/-- What holds of one socket between any two steps: the accounts of its queue, the events that it
watches, that the network got only packets that left the queue, and that it was told of all that
arrived but the datagrams that still wait.
-/
structure Endpoint.Delivers (wire : List (Flight θ)) (flown : List UdpPacketData)
    (told : List (List Byte × SocketAddress)) (socket : θ) (endpoint : Endpoint θ)
    : Prop where
  accounted : Accounted inetNtop endpoint.sending
  interested : Interested endpoint.sending
  small : ∀ packet ∈ endpoint.sending.accepted, packet.data.length < 2 ^ 31
  flown : flown.Sublist endpoint.sending.departed
  arrived
    : ∀ flight ∈ endpoint.arrived,
        flight ∈ wire ∧ flight.packet.addr.sockaddr host = (address socket).sockaddr host
  told
    : ∃ taken,
        endpoint.arrived = taken ++ endpoint.inbox
        ∧ told = taken.filterMap (Flight.expected address)

/-- Every socket delivers. -/
def Internet.Delivers (history : List (θ × ReadPacket)) (net : Internet θ) : Prop :=
  ∀ socket,
    (net.endpoints socket).Delivers inetNtop host address net.wire (net.flown socket)
      (signalled socket history) socket

variable {inetNtop host address} {net : Internet θ} {history : List (θ × ReadPacket)}

/-- One socket moves: what there is to check of it. The others have a longer network to look at. -/
theorem Internet.Delivers.update (delivers : net.Delivers inetNtop host address history) (socket : θ)
    (next : Endpoint θ) (flights : List (Flight θ)) (signals : List ReadPacket)
    (own : ∀ flight ∈ flights, flight.sender = socket)
    (moved
      : next.Delivers inetNtop host address net.wire
          (net.flown socket ++ flights.map Flight.packet)
          (signalled socket history ++ signals.map ReadPacket.content) socket)
    : (net.update socket next flights).Delivers inetNtop host address
        (history ++ signals.map (Prod.mk socket)) := by
  intro other
  have longer (flight : Flight θ) (sent : flight ∈ net.wire) : flight ∈ net.wire ++ flights :=
    List.mem_append_left flights sent
  by_cases same : other = socket
  · subst same
    have flown
        : (net.update other next flights).flown other
          = net.flown other ++ flights.map Flight.packet := by
      have all : flights.filter (fun flight => flight.sender = other) = flights :=
        List.filter_eq_self.mpr fun flight member => decide_eq_true (own flight member)
      simp [Internet.flown, Internet.update, all]
    have told
        : signalled other (history ++ signals.map (Prod.mk other))
          = signalled other history ++ signals.map ReadPacket.content := by
      simp [signalled, List.filter_map, Function.comp_def]
    rw [flown, told]
    simp only [Internet.update, Function.update_self]
    exact { moved with
      arrived := fun flight member =>
        ⟨longer flight (moved.arrived flight member).1, (moved.arrived flight member).2⟩ }
  · have flown : (net.update socket next flights).flown other = net.flown other := by
      have nothing : flights.filter (fun flight => flight.sender = other) = [] := by
        rw [List.filter_eq_nil_iff]
        intro flight member isOther
        exact same ((of_decide_eq_true isOther).symm.trans (own flight member))
      simp [Internet.flown, Internet.update, nothing]
    have told
        : signalled other (history ++ signals.map (Prod.mk socket)) = signalled other history := by
      simp [signalled, List.filter_map, Function.comp_def, Ne.symm same]
    rw [flown, told]
    simp only [Internet.update, Function.update_of_ne same]
    have before := delivers other
    exact { before with
      arrived := fun flight member =>
        ⟨longer flight (before.arrived flight member).1, (before.arrived flight member).2⟩ }

/-- Calls that the system's `sendto` can be given as they are: an `int` holds the length. -/
def Happening.Fits : Happening θ → Prop
  | .sendTo _ data _ => data.length < 2 ^ 31
  | _ => True

omit [DecidableEq θ] in
/-- Only the sending half of a socket moves, and packets that left its queue go out. -/
theorem Endpoint.Delivers.send {endpoint : Endpoint θ} {wire : List (Flight θ)}
    {flown : List UdpPacketData} {told : List (List Byte × SocketAddress)} {socket : θ}
    (delivers : endpoint.Delivers inetNtop host address wire flown told socket) (action : Action)
    (physical : PhysicalSocket) (out : List UdpPacketData) (notClose : action ≠ .close)
    (small
      : ∀ packet ∈ (endpoint.sending.step inetNtop action).accepted, packet.data.length < 2 ^ 31)
    (leaving
      : ∃ gone,
          (endpoint.sending.step inetNtop action).departed = endpoint.sending.departed ++ gone
          ∧ out.Sublist gone)
    : Endpoint.Delivers inetNtop host address wire (flown ++ out) (told ++ []) socket
        { endpoint with
          sending := endpoint.sending.step inetNtop action
          physical := physical } := by
  obtain ⟨gone, departed, some_⟩ := leaving
  refine ⟨delivers.accounted.step action, delivers.interested.step notClose, small, ?_,
    delivers.arrived, ?_⟩
  · rw [departed]
    exact delivers.flown.append some_
  · simpa using delivers.told

/-- A step of `send_data`: the packet that the system takes, if it takes one, leaves the queue. -/
theorem Internet.Delivers.proceed (delivers : net.Delivers inetNtop host address history)
    (socket : θ) (sent : SystemResult) (physical : PhysicalSocket)
    : (net.update socket
        { net.endpoints socket with
          sending :=
            (net.endpoints socket).sending.step inetNtop
              (.proceed (.ofResult ((net.endpoints socket).physical.sendTo sent).2))
          physical := physical }
        (if 0 ≤ sent.value then
          (net.endpoints socket).sending.attempted.toList.map (Flight.mk socket)
        else [])).Delivers inetNtop host address (history ++ []) := by
  obtain ⟨accepted, departed⟩ :=
    departed_proceed (net.endpoints socket).sending
      (.ofResult ((net.endpoints socket).physical.sendTo sent).2)
  refine delivers.update socket _ _ [] ?_
    ((delivers socket).send (.proceed _) _ _ (by simp) ?_ ⟨_, departed, ?_⟩)
  · intro flight member
    split_ifs at member
    · obtain ⟨packet, -, rfl⟩ := List.mem_map.mp member
      rfl
    · cases member
  · intro packet member
    refine (delivers socket).small packet ?_
    rw [← accepted]
    exact member
  · by_cases taken : 0 ≤ sent.value
    · rw [if_pos taken, if_neg (ofResult_ne_zero _ taken), List.map_map]
      exact (List.map_id _).symm ▸ List.Sublist.refl _
    · simp [taken]

/-- The packet of a datagram on the network was accepted by its sender. -/
theorem Internet.Delivers.accepted (delivers : net.Delivers inetNtop host address history)
    {flight : Flight θ} (sent : flight ∈ net.wire)
    : flight.packet ∈ (net.endpoints flight.sender).sending.accepted := by
  have flying : flight.packet ∈ net.flown flight.sender := by
    simp only [Internet.flown, List.mem_map, List.mem_filter]
    exact ⟨flight, ⟨sent, by simp⟩, rfl⟩
  have sender := delivers flight.sender
  exact sender.accounted.departed.2.1 (sender.flown.subset flying)

/-- A readable event takes the first datagram that waits and tells of it. -/
theorem Internet.Delivers.read (delivers : net.Delivers inetNtop host address history)
    (bound : ∀ socket, Bindable (address socket)) (socket : θ) {flight : Flight θ}
    {rest : List (Flight θ)} (waiting : (net.endpoints socket).inbox = flight :: rest)
    (around : Surroundings) (buf : List Byte)
    : (net.update socket
        { net.endpoints socket with
          physical :=
            (recvData host (net.endpoints socket).physical
              ((net.endpoints socket).taking host address flight around)).1
          buf := buf
          inbox := rest }
        []).Delivers inetNtop host address
        (history
          ++ (recvData host (net.endpoints socket).physical
              ((net.endpoints socket).taking host address flight around)).2.toList.map
              (Prod.mk socket)) := by
  have before := delivers socket
  refine delivers.update socket _ [] _ (by simp) ⟨before.accounted, before.interested,
    before.small, by simpa using before.flown, before.arrived, ?_⟩
  obtain ⟨taken, arrived, told⟩ := before.told
  rw [waiting] at arrived
  have sent := (before.arrived flight (by rw [arrived]; simp)).1
  have small := (delivers flight.sender).small flight.packet (delivers.accepted sent)
  have signal := recvData_taking host (net.endpoints socket) (bound flight.sender) small around
  refine ⟨taken ++ [flight], by rw [arrived, List.append_assoc]; rfl, ?_⟩
  rw [told, List.filterMap_append, List.filterMap_cons, ← signal, ← Option.toList_map]
  cases (recvData host (net.endpoints socket).physical
    ((net.endpoints socket).taking host address flight around)).2 <;> rfl

/-- Every step keeps every socket delivering, by cases on what happens. -/
theorem Internet.Delivers.step (bound : ∀ socket, Bindable (address socket))
    (delivers : net.Delivers inetNtop host address history) {happening : Happening θ}
    (fits : happening.Fits) {reached : Internet θ × List (θ × ReadPacket)}
    (enabled : reached ∈ net.step inetNtop host address happening)
    : reached.1.Delivers inetNtop host address (history ++ reached.2) := by
  unfold Internet.step at enabled
  cases happening with
  | sendTo socket data addr =>
      dsimp only at enabled
      split_ifs at enabled with calling
      · obtain rfl := Option.some.inj enabled
        refine delivers.update socket _ [] [] (by simp)
          ((delivers socket).send (.sendTo data addr) _ [] (by simp) ?_ ⟨[], ?_, by simp⟩)
        · intro packet member
          simp only [Sending.step, calling, if_true, Sending.sendTo, List.mem_append,
            List.mem_singleton] at member
          obtain old | rfl := member
          · exact (delivers socket).small packet old
          · exact fits
        · simp [Sending.step, calling, Sending.sendTo, Sending.departed]
      · cases enabled
  | writable socket =>
      dsimp only at enabled
      split_ifs at enabled with ready
      · obtain rfl := Option.some.inj enabled
        refine delivers.update socket _ [] [] (by simp)
          ((delivers socket).send .writable _ [] (by simp) ?_ ⟨[], ?_, by simp⟩)
        · intro packet member
          refine (delivers socket).small packet ?_
          simp only [Sending.step] at member
          split_ifs at member <;> exact member
        · simp only [Sending.step]
          split_ifs <;> simp [Sending.departed]
      · cases enabled
  | proceed socket sent =>
      dsimp only at enabled
      by_cases running : (net.endpoints socket).sending.control ≠ .idle
      · rw [if_pos running] at enabled
        obtain rfl := Option.some.inj enabled
        exact delivers.proceed socket sent _
      · rw [if_neg running] at enabled
        cases enabled
  | arrive socket flight =>
      dsimp only at enabled
      split_ifs at enabled with known
      · obtain rfl := Option.some.inj enabled
        have before := delivers socket
        refine delivers.update socket _ [] [] (by simp) ⟨before.accounted, before.interested,
          before.small, by simpa using before.flown, ?_, ?_⟩
        · intro other member
          obtain old | rfl : other ∈ (net.endpoints socket).arrived ∨ other = flight := by
            simpa using member
          · exact before.arrived other old
          · exact known
        · obtain ⟨taken, arrived, told⟩ := before.told
          exact ⟨taken, by rw [arrived, List.append_assoc], by simpa using told⟩
      · cases enabled
  | readable socket around =>
      dsimp only at enabled
      cases waiting : (net.endpoints socket).inbox with
      | nil =>
          rw [waiting] at enabled
          cases enabled
      | cons flight rest =>
          rw [waiting] at enabled
          dsimp only at enabled
          split_ifs at enabled with ready
          · obtain rfl := Option.some.inj enabled
            exact delivers.read bound socket waiting around _
          · cases enabled
  | unreadable socket around =>
      dsimp only at enabled
      split_ifs at enabled with ready
      · obtain rfl := Option.some.inj enabled
        have before := delivers socket
        refine delivers.update socket _ [] _ (by simp) ⟨before.accounted, before.interested,
          before.small, by simpa using before.flown, before.arrived, ?_⟩
        rw [recvData_failing]
        simpa using before.told
      · cases enabled

/-- New sockets deliver. -/
theorem Internet.Delivers.start (physical : θ → PhysicalSocket) (memory : θ → IOWatcher)
    (buf : θ → List Byte)
    : Internet.Delivers inetNtop host address []
        ⟨fun socket => .start (physical socket) (memory socket) (buf socket), []⟩ := by
  intro socket
  refine ⟨Accounted.start _ _, Interested.start _ _, ?_, List.nil_sublist _, ?_, ⟨[], rfl, rfl⟩⟩
  · intro packet member
    cases member
  · intro flight member
    cases member

end Delivery

end RtcBase.UdpSocket

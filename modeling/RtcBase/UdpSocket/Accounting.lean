import Mathlib.Algebra.BigOperators.Group.List.Basic
import RtcBase.UdpSocket.SendQueue

/-! Every accepted packet is accounted for: the queue of an address holds what was accepted for it
less what has left, in order, and the counter counts what is queued.
-/

namespace RtcBase.UdpSocket

open Library
open EventLoop (IOWatcher IoEvent)
open Networks (AddressFamily SocketAddress Text)

-----------------------------------------------------------------------------------------
-- Sizes
-----------------------------------------------------------------------------------------

/-- The number of packets in some entries of the map. -/
def sizes (entries : List (Text × List UdpPacketData)) : Nat :=
  (entries.map fun entry => entry.2.length).sum

/-- The number of queued packets, over all addresses. -/
def AsyncUDPSocket.queuedSize (socket : AsyncUDPSocket) : Nat := sizes socket.udpDataSendMap.toList

@[simp] theorem sizes_cons (entry : Text × List UdpPacketData)
    (entries : List (Text × List UdpPacketData))
    : sizes (entry :: entries) = entry.2.length + sizes entries := by
  simp [sizes]

theorem sizes_perm {first second : List (Text × List UdpPacketData)} (same : first.Perm second)
    : sizes first = sizes second :=
  (same.map _).sum_eq

/-- The queued packets are those of one address and those of the others. -/
theorem AsyncUDPSocket.queuedSize_eq (socket : AsyncUDPSocket) (key : Text)
    : socket.queuedSize
      = (socket.packetList key).length + sizes (entriesApart socket.udpDataSendMap key) := by
  rw [AsyncUDPSocket.queuedSize, AsyncUDPSocket.packetList]
  cases bound : socket.udpDataSendMap[key]? with
  | none => simp [entriesApart_of_getElem?_none bound]
  | some packets => rw [sizes_perm (toList_perm_of_getElem? bound), sizes_cons, Option.getD_some]

/-- Replacing the packets of one address changes the number of queued packets by as much. -/
theorem sizes_insert (socket : AsyncUDPSocket) (key : Text) (packets : List UdpPacketData)
    : sizes (socket.udpDataSendMap.insert key packets).toList + (socket.packetList key).length
      = socket.queuedSize + packets.length := by
  have inserted := sizes_perm (toList_insert_perm socket.udpDataSendMap key packets)
  have before := socket.queuedSize_eq key
  simp only [sizes_cons] at inserted
  omega

/-- The packets of an address after those of one are replaced. -/
theorem getD_insert (socket : AsyncUDPSocket) (key other : Text) (packets : List UdpPacketData)
    : (socket.udpDataSendMap.insert key packets)[other]?.getD []
      = if key = other then packets else socket.packetList other := by
  rw [Std.ExtTreeMap.getElem?_insert]
  simp only [Std.compare_eq_iff_eq]
  split <;> rfl

-----------------------------------------------------------------------------------------
-- What becomes of a packet
-----------------------------------------------------------------------------------------

/-- The packet left the queue with this attempt. -/
def leaves (entry : UdpPacketData × SendOutcome) : Option UdpPacketData :=
  match entry.2 with
  | .zero => none
  | _ => some entry.1

/-- The packet was transmitted with this attempt. -/
def transmits (entry : UdpPacketData × SendOutcome) : Option UdpPacketData :=
  match entry.2 with
  | .bytes _ => some entry.1
  | _ => none

/-- The packet was dropped after an error with this attempt. -/
def drops (entry : UdpPacketData × SendOutcome) : Option UdpPacketData :=
  match entry.2 with
  | .error => some entry.1
  | _ => none

namespace Sending

/-- The packets that have left the queue, in order. -/
def departed (state : Sending) : List UdpPacketData := state.attempts.filterMap leaves

/-- The packets transmitted, in order. -/
def transmitted (state : Sending) : List UdpPacketData := state.attempts.filterMap transmits

/-- The packets dropped after an error, in order. -/
def dropped (state : Sending) : List UdpPacketData := state.attempts.filterMap drops

/-- The packets in the queue. -/
def queued (state : Sending) : List UdpPacketData :=
  state.socket.udpDataSendMap.toList.flatMap Prod.snd

end Sending

/-- The packets with an address, in order. -/
def addressedTo (inetNtop : AddressFamily → List Byte → Option Text) (key : Text)
    (packets : List UdpPacketData)
    : List UdpPacketData :=
  packets.filter fun packetData => packetData.addr.toText inetNtop = key

theorem addressedTo_append (inetNtop : AddressFamily → List Byte → Option Text) (key : Text)
    (first second : List UdpPacketData)
    : addressedTo inetNtop key (first ++ second)
      = addressedTo inetNtop key first ++ addressedTo inetNtop key second :=
  List.filter_append ..

/-- The accounting invariant: the counter is the number of queued packets as an `int`, packets are
numbered as they are accepted, for each address the packets that have left and those that wait make
up the accepted ones in order, and an iterator points to an entry of the map.
-/
structure Accounted (inetNtop : AddressFamily → List Byte → Option Text) (state : Sending)
    : Prop where
  counter : state.socket.totalSendData = BitVec.ofNat 32 state.socket.queuedSize
  numbered : state.accepted.map UdpPacketData.number = List.range state.accepted.length
  fifo
    : ∀ key,
        addressedTo inetNtop key state.accepted
          = addressedTo inetNtop key state.departed ++ state.socket.packetList key
  iterator
    : ∀ key,
        state.control.key? = some key → state.socket.udpDataSendMap[key]? ≠ none

section Steps

variable {inetNtop : AddressFamily → List Byte → Option Text} {state : Sending}

/-- A new socket is accounted for. -/
theorem Accounted.start (fd : Int) (memory : IOWatcher) : Accounted inetNtop (.start fd memory) where
  counter := rfl
  numbered := rfl
  fifo _ := rfl
  iterator _ pointing := by cases pointing

/-- What adding a packet to the queue does. -/
theorem addUdpSendData_spec (inetNtop : AddressFamily → List Byte → Option Text)
    (socket : AsyncUDPSocket) (packetData : UdpPacketData)
    : (socket.addUdpSendData inetNtop packetData).1.queuedSize = socket.queuedSize + 1
      ∧ (socket.addUdpSendData inetNtop packetData).1.totalSendData = socket.totalSendData + 1
      ∧ (∀ key,
          (socket.addUdpSendData inetNtop packetData).1.packetList key
            = socket.packetList key ++ addressedTo inetNtop key [packetData])
      ∧ ∀ key : Text,
          socket.udpDataSendMap[key]? ≠ none
          → (socket.addUdpSendData inetNtop packetData).1.udpDataSendMap[key]? ≠ none := by
  refine ⟨?_, rfl, ?_, ?_⟩
  · have inserted := sizes_insert socket (packetData.addr.toText inetNtop)
      (socket.packetList (packetData.addr.toText inetNtop) ++ [packetData])
    rw [List.length_append, List.length_singleton] at inserted
    change sizes (socket.udpDataSendMap.insert _ _).toList = _
    omega
  · intro key
    change (socket.udpDataSendMap.insert _ _)[key]?.getD [] = _
    rw [getD_insert]
    by_cases isKey : packetData.addr.toText inetNtop = key
    · simp [addressedTo, isKey]
    · simp [addressedTo, isKey]
  · intro key present
    change (socket.udpDataSendMap.insert _ _)[key]? ≠ none
    rw [Std.ExtTreeMap.getElem?_insert]
    split
    · simp
    · exact present

/-- What removing the first packet of an address does. -/
theorem popFront_spec (socket : AsyncUDPSocket) {key : Text} {packetData : UdpPacketData}
    {rest : List UdpPacketData} (waiting : socket.packetList key = packetData :: rest)
    : (socket.popFront key).queuedSize + 1 = socket.queuedSize
      ∧ (socket.popFront key).totalSendData = socket.totalSendData - 1
      ∧ (∀ other,
          socket.packetList other
            = (if key = other then [packetData] else []) ++ (socket.popFront key).packetList other)
      ∧ ∀ other : Text,
          socket.udpDataSendMap[other]? ≠ none
          → (socket.popFront key).udpDataSendMap[other]? ≠ none := by
  refine ⟨?_, rfl, ?_, ?_⟩
  · have inserted := sizes_insert socket key (socket.packetList key).tail
    rw [waiting, List.tail_cons, List.length_cons] at inserted
    change sizes (socket.udpDataSendMap.insert _ _).toList + 1 = _
    rw [waiting, List.tail_cons]
    omega
  · intro other
    change _ = _ ++ (socket.udpDataSendMap.insert _ _)[other]?.getD []
    rw [getD_insert, waiting, List.tail_cons]
    by_cases isKey : key = other
    · rw [if_pos isKey, if_pos isKey, ← isKey, waiting, List.singleton_append]
    · rw [if_neg isKey, if_neg isKey, List.nil_append]
  · intro other present
    change (socket.udpDataSendMap.insert _ _)[other]? ≠ none
    rw [Std.ExtTreeMap.getElem?_insert]
    split
    · simp
    · exact present

/-- Accepting a packet keeps the accounts. -/
theorem Accounted.sendTo (h : Accounted inetNtop state) (data : List Byte) (addr : SocketAddress)
    : Accounted inetNtop (state.sendTo inetNtop data addr) := by
  obtain ⟨size, total, lists, entries⟩ := addUdpSendData_spec inetNtop state.socket
    ⟨state.accepted.length, data, addr⟩
  refine ⟨?_, ?_, ?_, ?_⟩
  · change (state.socket.addUdpSendData _ _).1.totalSendData = BitVec.ofNat 32 _
    rw [total, h.counter]
    change _ = BitVec.ofNat 32 (state.socket.addUdpSendData _ _).1.queuedSize
    rw [size, BitVec.ofNat_add]
    rfl
  · change (state.accepted ++ [_]).map _ = List.range (state.accepted ++ [_]).length
    rw [List.map_append, h.numbered, List.length_append, List.length_singleton, List.range_succ]
    rfl
  · intro key
    change addressedTo inetNtop key (state.accepted ++ [_])
      = addressedTo inetNtop key state.departed ++ (state.socket.addUdpSendData _ _).1.packetList key
    rw [addressedTo_append, h.fifo, lists, List.append_assoc]
  · intro key pointing
    exact entries key (h.iterator key pointing)

/-- An attempt that sends something removes the packet and signals. -/
theorem attempt_bytes (state : Sending) (key : Text) (packetData : UdpPacketData) (count : Nat)
    : state.attempt key packetData (.bytes count)
      = { state with
          socket := state.socket.popFront key
          control := .signalling key
          attempts := state.attempts ++ [(packetData, .bytes count)] } := by
  have notError : ¬ -1 = (SendOutcome.bytes count).value := by
    simp only [SendOutcome.value]
    omega
  have notZero : ¬ 0 = (SendOutcome.bytes count).value := by
    simp only [SendOutcome.value]
    omega
  rw [Sending.attempt, if_neg notError, if_neg notZero]

/-- An attempt to send keeps the accounts, by cases on its outcome. -/
theorem Accounted.attempt (h : Accounted inetNtop state) {key : Text}
    {packetData : UdpPacketData} {rest : List UdpPacketData}
    (waiting : state.socket.packetList key = packetData :: rest)
    (present : state.socket.udpDataSendMap[key]? ≠ none) (sent : SendOutcome)
    : Accounted inetNtop (state.attempt key packetData sent) := by
  obtain ⟨size, total, lists, entries⟩ := popFront_spec state.socket waiting
  -- the packet that leaves is the first accepted one for its address that had not left yet
  have ownKey : packetData.addr.toText inetNtop = key := by
    have member : packetData ∈ addressedTo inetNtop key state.accepted := by
      rw [h.fifo, waiting]
      simp
    exact of_decide_eq_true (List.mem_filter.mp member).2
  have counter
      : (state.socket.popFront key).totalSendData
        = BitVec.ofNat 32 (state.socket.popFront key).queuedSize := by
    rw [total]
    rw [h.counter, ← size, BitVec.ofNat_add]
    exact BitVec.add_sub_cancel _ _
  have fifo (other : Text) (attempts : List (UdpPacketData × SendOutcome))
      (leaving : attempts.filterMap leaves = [packetData])
      : addressedTo inetNtop other state.accepted
        = addressedTo inetNtop other ((state.attempts ++ attempts).filterMap leaves)
          ++ (state.socket.popFront key).packetList other := by
    rw [List.filterMap_append, leaving, addressedTo_append, List.append_assoc, h.fifo, lists other]
    by_cases isKey : key = other
    · simp [addressedTo, ownKey, isKey, Sending.departed]
    · simp [addressedTo, ownKey, isKey, Sending.departed]
  cases sent with
  | error =>
      refine ⟨counter, h.numbered, fun other => fifo other _ rfl, ?_⟩
      intro other pointing
      cases pointing
  | zero =>
      refine ⟨h.counter, h.numbered, ?_, ?_⟩
      · intro other
        have nothing
            : (state.attempt key packetData .zero).departed = state.departed := by
          simp [Sending.attempt, Sending.departed, SendOutcome.value, leaves]
        rw [nothing]
        exact h.fifo other
      · intro other pointing
        cases pointing
  | bytes count =>
      rw [attempt_bytes]
      refine ⟨counter, h.numbered, fun other => fifo other _ rfl, ?_⟩
      intro other pointing
      cases pointing
      exact entries key present

/-- Moving on in `send_data` keeps the accounts, as long as the iterator points to an entry. -/
theorem Accounted.move (h : Accounted inetNtop state) {control : Control}
    (valid
      : ∀ key, control.key? = some key → state.socket.udpDataSendMap[key]? ≠ none)
    : Accounted inetNtop { state with control := control } :=
  ⟨h.counter, h.numbered, h.fifo, valid⟩

/-- Changing the watched events keeps the accounts. -/
theorem Accounted.watch (h : Accounted inetNtop state) (watcher : IOWatcher)
    : Accounted inetNtop
        { state with socket := { state.socket with socketWatcher := watcher } } :=
  ⟨h.counter, h.numbered, h.fifo, h.iterator⟩

/-- A key that a walk comes to is in the map. -/
theorem getElem?_of_head? {entries : List (Text × List UdpPacketData)} {key : Text}
    (isFirst : entries.head?.map Prod.fst = some key)
    {map : Std.ExtTreeMap Text (List UdpPacketData)} (included : entries ⊆ map.toList)
    : map[key]? ≠ none := by
  obtain ⟨entry, head, rfl⟩ := Option.map_eq_some_iff.mp isFirst
  have member := included (List.mem_of_head? head)
  rw [Std.ExtTreeMap.mem_toList_iff_getElem?_eq_some.mp member]
  simp

/-- A step of `send_data` keeps the accounts, by cases on where it is. -/
theorem Accounted.proceed (h : Accounted inetNtop state) (sent : SendOutcome)
    : Accounted inetNtop (state.proceed sent) := by
  have next (key : Text)
      : Accounted inetNtop
          { state with control := .visiting (nextKey state.socket.udpDataSendMap key) } := by
    apply h.move
    intro other pointing
    exact getElem?_of_head? pointing (fun entry member => (List.mem_filter.mp member).1)
  cases control : state.control with
  | idle =>
      rw [Sending.proceed, control]
      exact h
  | condition =>
      simp only [Sending.proceed, control]
      split
      · apply h.move
        intro key pointing
        exact getElem?_of_head? pointing (List.Subset.refl _)
      · have idle : Accounted inetNtop { state with control := .idle } := by
          apply h.move
          intro key pointing
          cases pointing
        split
        · exact idle.watch _
        · exact idle
  | visiting iter =>
      cases iter with
      | none =>
          simp only [Sending.proceed, control]
          apply h.move
          intro key pointing
          cases pointing
      | some key =>
          simp only [Sending.proceed, control]
          cases waiting : state.socket.packetList key with
          | nil => exact next key
          | cons packetData rest => exact h.attempt waiting (h.iterator key (by rw [control]; rfl)) sent
  | signalling key =>
      simp only [Sending.proceed, control]
      exact next key

/-- Every action keeps the accounts. -/
theorem Accounted.step (h : Accounted inetNtop state) (action : Action)
    : Accounted inetNtop (state.step inetNtop action) := by
  cases action with
  | sendTo data addr =>
      simp only [Sending.step]
      split
      · exact h.sendTo data addr
      · exact h
  | writable =>
      simp only [Sending.step]
      split
      · apply h.move
        intro key pointing
        cases pointing
      · exact h
  | proceed sent => exact h.proceed sent
  | close =>
      simp only [Sending.step]
      split
      · exact h.watch _
      · exact h

-----------------------------------------------------------------------------------------
-- What the accounts say
-----------------------------------------------------------------------------------------

/-- No packet is accepted twice. -/
theorem Accounted.nodup (h : Accounted inetNtop state) : state.accepted.Nodup := by
  have numbers : (state.accepted.map UdpPacketData.number).Nodup := by
    rw [h.numbered]
    exact List.nodup_range
  exact numbers.of_map

/-- A packet that waits for an address was accepted for it. -/
theorem Accounted.packetList_key (h : Accounted inetNtop state) {key : Text}
    {packetData : UdpPacketData} (waiting : packetData ∈ state.socket.packetList key)
    : packetData.addr.toText inetNtop = key := by
  have member : packetData ∈ addressedTo inetNtop key state.accepted := by
    rw [h.fifo]
    exact List.mem_append_right _ waiting
  exact of_decide_eq_true (List.mem_filter.mp member).2

/-- A packet is queued as often as it waits for its own address. -/
theorem Accounted.count_queued (h : Accounted inetNtop state) (packetData : UdpPacketData)
    : state.queued.count packetData
      = (state.socket.packetList (packetData.addr.toText inetNtop)).count packetData := by
  have apart
      : ((entriesApart state.socket.udpDataSendMap
          (packetData.addr.toText inetNtop)).flatMap Prod.snd).count packetData = 0 := by
    rw [List.count_eq_zero]
    intro member
    obtain ⟨entry, isEntry, waiting⟩ := List.mem_flatMap.mp member
    obtain ⟨inMap, differs⟩ := List.mem_filter.mp isEntry
    have bound := Std.ExtTreeMap.mem_toList_iff_getElem?_eq_some.mp inMap
    have ownKey : packetData.addr.toText inetNtop = entry.1 := by
      apply h.packetList_key
      rwa [AsyncUDPSocket.packetList, bound]
    exact of_decide_eq_true differs ownKey.symm
  rw [Sending.queued, AsyncUDPSocket.packetList]
  cases bound : state.socket.udpDataSendMap[packetData.addr.toText inetNtop]? with
  | none =>
      rw [entriesApart_of_getElem?_none bound] at apart
      simpa using apart
  | some packets =>
      rw [((toList_perm_of_getElem? bound).flatMap_right Prod.snd).count_eq, List.flatMap_cons,
        List.count_append, apart]
      rfl

/-- A packet that has left was transmitted or dropped, by induction on the attempts. -/
theorem count_departed (attempts : List (UdpPacketData × SendOutcome)) (packetData : UdpPacketData)
    : (attempts.filterMap leaves).count packetData
      = (attempts.filterMap transmits).count packetData
        + (attempts.filterMap drops).count packetData := by
  induction attempts with
  | nil => rfl
  | cons entry rest ih =>
      obtain ⟨packet, outcome⟩ := entry
      cases outcome with
      | error =>
          simp only [List.filterMap_cons, leaves, transmits, drops, List.count_cons, ih]
          omega
      | zero => simp only [List.filterMap_cons, leaves, transmits, drops, ih]
      | bytes count =>
          simp only [List.filterMap_cons, leaves, transmits, drops, List.count_cons, ih]
          omega

/-- A packet is queued, transmitted and dropped as often as it was accepted. -/
theorem Accounted.count_eq (h : Accounted inetNtop state) (packetData : UdpPacketData)
    : state.queued.count packetData + state.transmitted.count packetData
        + state.dropped.count packetData
      = state.accepted.count packetData := by
  have own (packets : List UdpPacketData)
      : (addressedTo inetNtop (packetData.addr.toText inetNtop) packets).count packetData
        = packets.count packetData :=
    List.count_filter (decide_eq_true rfl)
  have split := congrArg (List.count packetData) (h.fifo (packetData.addr.toText inetNtop))
  rw [List.count_append, own, own, ← h.count_queued, Sending.departed, count_departed] at split
  rw [Sending.transmitted, Sending.dropped, split]
  omega

/-- The counter is the number of queued packets, as long as an `int` holds it. -/
theorem Accounted.counter_eq (h : Accounted inetNtop state)
    (fits : state.socket.queuedSize < 2 ^ 31)
    : state.socket.totalSendData.toInt = state.socket.queuedSize := by
  have value : (BitVec.ofNat 32 state.socket.queuedSize).toNat = state.socket.queuedSize := by
    rw [BitVec.toNat_ofNat]
    exact Nat.mod_eq_of_lt (by omega)
  rw [h.counter, BitVec.toInt_eq_toNat_of_lt (by omega), value]

/-- A positive counter means that there are packets in the queue. -/
theorem Accounted.queued_of_positive (h : Accounted inetNtop state)
    (positive : 0 < state.socket.totalSendData.toInt)
    : 0 < state.socket.queuedSize := by
  by_contra empty
  have none_queued : state.socket.queuedSize = 0 := by omega
  rw [h.counter, none_queued] at positive
  exact absurd positive (by decide)

end Steps

end RtcBase.UdpSocket

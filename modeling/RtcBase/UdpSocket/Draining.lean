import RtcBase.Library.Schedules
import RtcBase.UdpSocket.Accounting

/-! The send queue over whole runs. `send_data` comes to its end once no packet is enqueued any more,
and writable events stay asked for while packets wait.
-/

namespace RtcBase.UdpSocket

open Library
open EventLoop (IOWatcher IoEvent eventsOf)
open Networks (AddressFamily SocketAddress Text)

-----------------------------------------------------------------------------------------
-- A rank for draining
-----------------------------------------------------------------------------------------

/-- The number of addresses that have an entry. -/
def AsyncUDPSocket.entryCount (socket : AsyncUDPSocket) : Nat := socket.udpDataSendMap.toList.length

/-- How far a round is from an attempt or the end, with these entries still to visit: a round
without packets ahead goes on to the next one.
-/
def distance (entryCount : Nat) (ahead : List (Text × List UdpPacketData)) : Nat :=
  ahead.length + if 0 < sizes ahead then 0 else entryCount + 3

/-- How far `send_data` is from an attempt or its end. -/
def Sending.position (state : Sending) : Nat :=
  match state.control with
  | .idle => 0
  | .condition => state.socket.entryCount + 2
  | .visiting iter =>
      distance state.socket.entryCount (entriesFrom state.socket.udpDataSendMap iter)
  | .signalling key =>
      distance state.socket.entryCount (entriesAfter state.socket.udpDataSendMap key) + 1

/-- The rank that the steps of `send_data` use up: the queued packets first. -/
def Sending.rank (state : Sending) : Nat :=
  state.socket.queuedSize * (2 * state.socket.entryCount + 5) + state.position

/-- The entries after a key are entries of the map, so the distance is bounded. -/
theorem distance_entriesAfter_le (socket : AsyncUDPSocket) (key : Text)
    : distance socket.entryCount (entriesAfter socket.udpDataSendMap key)
      ≤ 2 * socket.entryCount + 3 := by
  have fewer : (entriesAfter socket.udpDataSendMap key).length ≤ socket.entryCount :=
    List.length_filter_le ..
  rw [distance]
  split <;> omega

/-- Removing a packet leaves the entries. -/
theorem entryCount_popFront {socket : AsyncUDPSocket} {key : Text}
    (present : socket.udpDataSendMap[key]? ≠ none)
    : (socket.popFront key).entryCount = socket.entryCount := by
  obtain ⟨packets, bound⟩ := Option.ne_none_iff_exists'.mp present
  have before := (toList_perm_of_getElem? bound).length_eq
  have after := (toList_insert_perm socket.udpDataSendMap key (socket.packetList key).tail).length_eq
  rw [AsyncUDPSocket.entryCount, AsyncUDPSocket.entryCount, before]
  exact after

section Draining

variable {inetNtop : AddressFamily → List Byte → Option Text} {state : Sending}

/-- Going past an entry without packets. -/
theorem distance_of_empty {key : Text} (present : state.socket.udpDataSendMap[key]? ≠ none)
    (empty : state.socket.packetList key = [])
    : distance state.socket.entryCount (entriesFrom state.socket.udpDataSendMap (some key))
      = distance state.socket.entryCount (entriesAfter state.socket.udpDataSendMap key) + 1 := by
  obtain ⟨packets, bound⟩ := Option.ne_none_iff_exists'.mp present
  rw [AsyncUDPSocket.packetList, bound, Option.getD_some] at empty
  subst empty
  have permuted := entriesFrom_perm bound
  rw [distance, distance, permuted.length_eq, sizes_perm permuted, sizes_cons, List.length_cons,
    List.length_nil, Nat.zero_add]
  omega

/-- An attempt ends the round or uses up a packet. -/
theorem rank_attempt {key : Text} {packetData : UdpPacketData} {rest : List UdpPacketData}
    (waiting : state.socket.packetList key = packetData :: rest)
    (present : state.socket.udpDataSendMap[key]? ≠ none) (sent : SendOutcome)
    : (state.attempt key packetData sent).control = .idle
      ∨ (state.attempt key packetData sent).rank < state.rank := by
  obtain ⟨size, -, -, -⟩ := popFront_spec state.socket waiting
  cases sent with
  | error => exact .inl rfl
  | zero => exact .inl rfl
  | bytes count =>
      right
      have entries := entryCount_popFront present
      have near := distance_entriesAfter_le (state.socket.popFront key) key
      rw [entries] at near
      have used
          : state.socket.queuedSize * (2 * state.socket.entryCount + 5)
            = (state.socket.popFront key).queuedSize * (2 * state.socket.entryCount + 5)
              + (2 * state.socket.entryCount + 5) := by
        rw [← size, Nat.succ_mul]
      rw [attempt_bytes, Sending.rank, Sending.rank]
      simp only [Sending.position, entries]
      omega

/-- A step of `send_data` ends it or lowers the rank, by cases on where it is. -/
theorem rank_proceed (h : Accounted inetNtop state) (running : state.control ≠ .idle)
    (sent : SendOutcome)
    : (state.proceed sent).control = .idle ∨ (state.proceed sent).rank < state.rank := by
  cases control : state.control with
  | idle => exact absurd control running
  | condition =>
      simp only [Sending.proceed, control]
      split
      · rename_i positive
        right
        have some_queued := h.queued_of_positive positive
        rw [AsyncUDPSocket.queuedSize] at some_queued
        simp only [Sending.rank, Sending.position, control, entriesFrom_firstKey, distance,
          if_pos some_queued, AsyncUDPSocket.entryCount]
        omega
      · split
        · exact .inl rfl
        · exact .inl rfl
  | visiting iter =>
      cases iter with
      | none =>
          right
          simp only [Sending.proceed, control, Sending.rank, Sending.position, entriesFrom, distance,
            sizes, List.map_nil, List.sum_nil, Nat.lt_irrefl, if_false, List.length_nil]
          omega
      | some key =>
          have present := h.iterator key (by rw [control]; rfl)
          simp only [Sending.proceed, control]
          cases waiting : state.socket.packetList key with
          | nil =>
              right
              have passed := distance_of_empty present waiting
              simp only [Sending.rank, Sending.position, control, entriesFrom_nextKey, passed]
              omega
          | cons packetData rest => exact rank_attempt waiting present sent
  | signalling key =>
      right
      simp only [Sending.proceed, control, Sending.rank, Sending.position, entriesFrom_nextKey]
      omega

/-- Every other action but `send_to` leaves the rank while `send_data` runs. -/
theorem rank_step (h : Accounted inetNtop state) (running : state.control ≠ .idle)
    {action : Action} (notSendTo : ∀ data addr, action ≠ .sendTo data addr)
    : (state.step inetNtop action).control = .idle
      ∨ (state.step inetNtop action).rank ≤ state.rank
        ∧ ((∃ sent, action = .proceed sent) → (state.step inetNtop action).rank < state.rank) := by
  cases action with
  | sendTo data addr => exact absurd rfl (notSendTo data addr)
  | writable =>
      right
      refine ⟨?_, by simp⟩
      rw [Sending.step, if_neg running]
  | proceed sent =>
      rcases rank_proceed h running sent with ended | lower
      · exact .inl ended
      · exact .inr ⟨lower.le, fun _ => lower⟩
  | close =>
      right
      refine ⟨?_, by simp⟩
      rw [Sending.step]
      split
      · exact Nat.le_refl _
      · exact Nat.le_refl _

/-- Once no packet is enqueued any more, `send_data` ends, whatever the outcomes of its attempts. -/
theorem drains (fd : Int) (memory : IOWatcher) {schedule : Nat → Action}
    (finitely : ∃ settled, ∀ n ≥ settled, ∀ data addr, schedule n ≠ .sendTo data addr)
    (runs : ∀ n, ∃ m ≥ n, ∃ sent, schedule m = .proceed sent) (n : Nat)
    : ∃ m ≥ n,
        (stateAt (Sending.step inetNtop) (.start fd memory) schedule m).control = .idle := by
  obtain ⟨settled, quiet⟩ := finitely
  apply @eventually_of_rank _ _
    (fun n => (stateAt (Sending.step inetNtop) (.start fd memory) schedule n).rank) settled _ runs n
  intro m late running
  have accounted
      : Accounted inetNtop (stateAt (Sending.step inetNtop) (.start fd memory) schedule m) :=
    runFrom_invariant (fun _ action h => h.step action) (Accounted.start fd memory) _
  simp only [stateAt_succ]
  exact rank_step accounted running (quiet m late)

end Draining

-----------------------------------------------------------------------------------------
-- Interest in writable events
-----------------------------------------------------------------------------------------

/-- A round is under way. -/
def Control.inRound : Control → Bool
  | .visiting _ => true
  | .signalling _ => true
  | _ => false

/-- Readable events are watched, and writable ones while the counter is positive and in a round. -/
structure Interested (state : Sending) : Prop where
  reading : IoEvent.read ∈ state.socket.socketWatcher.watched
  writing
    : 0 < state.socket.totalSendData.toInt → IoEvent.write ∈ state.socket.socketWatcher.watched
  inRound
    : state.control.inRound = true → IoEvent.write ∈ state.socket.socketWatcher.watched

section Interest

variable {inetNtop : AddressFamily → List Byte → Option Text} {state : Sending}

theorem eventsOf_read : eventsOf IoEvent.read.mask = {.read} := by decide

theorem eventsOf_write : eventsOf IoEvent.write.mask = {.write} := by decide

/-- The constructor watches readable events. -/
theorem Interested.start (fd : Int) (memory : IOWatcher) : Interested (.start fd memory) where
  reading := by
    simp [Sending.start, AsyncUDPSocket.construct, AsyncUDPSocket.enableEvents,
      IOWatcher.watched_startIoEvent, eventsOf_read]
  writing positive := absurd positive (show ¬ (0 : Int) < (0 : BitVec 32).toInt by decide)
  inRound running := by cases running

/-- A call of `send_to` adds writable events. -/
theorem Interested.sendTo (h : Interested state) (data : List Byte) (addr : SocketAddress)
    : Interested (state.sendTo inetNtop data addr) := by
  have watched
      : (state.sendTo inetNtop data addr).socket.socketWatcher.watched
        = state.socket.socketWatcher.watched ∪ {.write} := by
    rw [← eventsOf_write]
    exact IOWatcher.watched_startIoEvent ..
  refine ⟨?_, ?_, ?_⟩
  · rw [watched]
    exact Finset.mem_union_left _ h.reading
  · intro _
    rw [watched]
    exact Finset.mem_union_right _ (Finset.mem_singleton_self _)
  · intro _
    rw [watched]
    exact Finset.mem_union_right _ (Finset.mem_singleton_self _)

/-- An active watcher loses writable events and nothing else. -/
theorem Interested.disable (h : Interested state)
    : (state.socket.disableEvents IoEvent.write.mask).socketWatcher.watched
      = state.socket.socketWatcher.watched \ {.write} := by
  have active : state.socket.socketWatcher.active = true := by
    by_contra stopped
    have reading := h.reading
    rw [IOWatcher.watched, if_neg stopped] at reading
    exact absurd reading (Finset.notMem_empty _)
  rw [AsyncUDPSocket.disableEvents, IOWatcher.watched_stopIoEvent, eventsOf_write, if_neg]
  rintro ⟨stopped, -⟩
  rw [active] at stopped
  cases stopped

/-- Steps that leave the watcher in a round keep the interest. -/
theorem Interested.inRound_of_watcher (h : Interested state) (running : state.control.inRound = true)
    {next : Sending} (same : next.socket.socketWatcher = state.socket.socketWatcher)
    : Interested next := by
  have writing := h.inRound running
  refine ⟨?_, ?_, ?_⟩
  · rw [same]
    exact h.reading
  · intro _
    rw [same]
    exact writing
  · intro _
    rw [same]
    exact writing

/-- An attempt leaves the watcher, by cases on its outcome. -/
theorem attempt_watcher (state : Sending) (key : Text) (packetData : UdpPacketData)
    (sent : SendOutcome)
    : (state.attempt key packetData sent).socket.socketWatcher = state.socket.socketWatcher := by
  rw [Sending.attempt]
  split
  · rfl
  · split <;> rfl

/-- A step of `send_data` keeps the interest, by cases on where it is. -/
theorem Interested.proceed (h : Interested state) (sent : SendOutcome)
    : Interested (state.proceed sent) := by
  cases control : state.control with
  | idle =>
      rw [Sending.proceed, control]
      exact h
  | condition =>
      simp only [Sending.proceed, control]
      split
      · rename_i positive
        exact ⟨h.reading, h.writing, fun _ => h.writing positive⟩
      · rename_i notPositive
        rw [if_pos (by omega)]
        refine ⟨?_, fun positive => absurd positive notPositive, fun running => by cases running⟩
        rw [h.disable]
        exact Finset.mem_sdiff.mpr ⟨h.reading, by decide⟩
  | visiting iter =>
      have running : state.control.inRound = true := by rw [control]; rfl
      apply h.inRound_of_watcher running
      cases iter with
      | none => simp only [Sending.proceed, control]
      | some key =>
          simp only [Sending.proceed, control]
          split
          · rfl
          · exact attempt_watcher ..
  | signalling key =>
      have running : state.control.inRound = true := by rw [control]; rfl
      apply h.inRound_of_watcher running
      simp only [Sending.proceed, control]

/-- Every action but `close` keeps the interest. -/
theorem Interested.step (h : Interested state) {action : Action} (notClose : action ≠ .close)
    : Interested (state.step inetNtop action) := by
  cases action with
  | sendTo data addr =>
      simp only [Sending.step]
      split
      · exact h.sendTo data addr
      · exact h
  | writable =>
      simp only [Sending.step]
      split
      · exact ⟨h.reading, h.writing, fun running => by cases running⟩
      · exact h
  | proceed sent => exact h.proceed sent
  | close => exact absurd rfl notClose

/-- Without `close`, the interest is kept over every run. -/
theorem interested_run (fd : Int) (memory : IOWatcher) {actions : List Action}
    (open_ : Action.close ∉ actions)
    : Interested (runFrom (Sending.step inetNtop) (.start fd memory) actions) := by
  have along
      : Along (Sending.step inetNtop) (fun _ action => action ≠ .close) (.start fd memory)
          actions := by
    apply along_of_forall_mem
    intro action member _ isClose
    exact open_ (isClose ▸ member)
  exact runFrom_invariant_along (fun _ _ kept notClose => kept.step notClose)
    (Interested.start fd memory) along

end Interest

-----------------------------------------------------------------------------------------
-- Whole runs
-----------------------------------------------------------------------------------------

/-- The send queue is sound: the counter is the number of queued packets as long as an `int` holds
it, every accepted packet is queued, transmitted once or dropped and no other one is, and packets
with one address leave in the order in which they were accepted.
-/
structure QueueSound (inetNtop : AddressFamily → List Byte → Option Text) (state : Sending)
    : Prop where
  counter
    : state.socket.queuedSize < 2 ^ 31
      → state.socket.totalSendData.toInt = state.socket.queuedSize
  once : state.accepted.Nodup
  one_state
    : ∀ packetData,
        state.queued.count packetData + state.transmitted.count packetData
            + state.dropped.count packetData
          = if packetData ∈ state.accepted then 1 else 0
  in_order
    : ∀ key,
        addressedTo inetNtop key state.accepted
          = addressedTo inetNtop key state.departed ++ state.socket.packetList key

/-- What is accounted for is sound. -/
theorem Accounted.sound {inetNtop : AddressFamily → List Byte → Option Text} {state : Sending}
    (h : Accounted inetNtop state)
    : QueueSound inetNtop state where
  counter := h.counter_eq
  once := h.nodup
  one_state packetData := by
    rw [h.count_eq]
    split
    · rename_i member
      exact List.count_eq_one_of_mem h.nodup member
    · rename_i outside
      exact List.count_eq_zero_of_not_mem outside
  in_order := h.fifo

/-- In every run of a socket, with calls of `send_to` before, between and inside rounds, writable
events and any outcomes: the queue is sound at every time; until `close` is called, writable events
are watched while the counter is positive; and `send_data` ends whenever only finitely many packets
are enqueued.
-/
theorem udp_send_queue (inetNtop : AddressFamily → List Byte → Option Text) (fd : Int)
    (memory : IOWatcher)
    : (∀ actions,
        QueueSound inetNtop (runFrom (Sending.step inetNtop) (.start fd memory) actions)
        ∧ (Action.close ∉ actions
          → 0 < (runFrom (Sending.step inetNtop) (.start fd memory)
              actions).socket.totalSendData.toInt
          → IoEvent.write ∈ (runFrom (Sending.step inetNtop) (.start fd memory)
              actions).socket.socketWatcher.watched))
      ∧ ∀ schedule : Nat → Action,
          (∃ settled, ∀ n ≥ settled, ∀ data addr, schedule n ≠ .sendTo data addr)
          → (∀ n, ∃ m ≥ n, ∃ sent, schedule m = .proceed sent)
          → ∀ n, ∃ m ≥ n,
              (stateAt (Sending.step inetNtop) (.start fd memory) schedule m).control = .idle := by
  refine ⟨?_, ?_⟩
  · intro actions
    have accounted
        : Accounted inetNtop (runFrom (Sending.step inetNtop) (.start fd memory) actions) :=
      runFrom_invariant (fun _ action h => h.step action) (Accounted.start fd memory) actions
    exact ⟨accounted.sound, fun open_ => (interested_run fd memory open_).writing⟩
  · intro schedule finitely runs
    exact drains fd memory finitely runs

/-- The nil address. -/
def nilAddress : SocketAddress where
  hostname := []
  ip := .unspec
  port := 0
  scopeId := 0
  literal := false

/-- IPv4 addresses in dotted notation. -/
def dottedNtop : AddressFamily → List Byte → Option Text
  | .inet, [a, b, c, d] =>
      some (List.intercalate ['.'] ([a, b, c, d].map fun byte => Nat.toDigits 10 byte.toNat))
  | _, _ => none

/-- Port 5000 of the host `192.168.0.n`. -/
def hostAddress (n : Byte) : SocketAddress where
  hostname := []
  ip := .ip4 #v[192, 168, 0, n]
  port := 5000
  scopeId := 0
  literal := false

/-- Packets are accepted for two hosts; when the first of them has been sent, the handler of the
signal sends another one to the same host.
-/
def sendsAgain : List Action :=
  [.sendTo [1] (hostAddress 1), .sendTo [2] (hostAddress 2), .writable, .proceed (.bytes 0),
    .proceed (.bytes 0), .sendTo [3] (hostAddress 1)]

/-- Witness: with every attempt succeeding `send_data` ends, and the three packets have been sent, to
each host in the order in which they were accepted.
-/
theorem udp_send_queue_sendsAgain
    : (∃ m ≥ 6,
        (stateAt (Sending.step dottedNtop) (.start 3 ⟨false, 0, 0⟩)
          (fun n => sendsAgain.getD n (.proceed (.bytes 0))) m).control
          = .idle)
      ∧ QueueSound dottedNtop
          (runFrom (Sending.step dottedNtop) (.start 3 ⟨false, 0, 0⟩)
            (sendsAgain ++ List.replicate 10 (.proceed (.bytes 0))))
      ∧ (runFrom (Sending.step dottedNtop) (.start 3 ⟨false, 0, 0⟩)
          (sendsAgain ++ List.replicate 10 (.proceed (.bytes 0)))).transmitted.map
            UdpPacketData.number
          = [0, 1, 2] := by
  obtain ⟨sound, ends⟩ := udp_send_queue dottedNtop 3 ⟨false, 0, 0⟩
  refine ⟨?_, (sound _).1, by decide +kernel⟩
  refine ends (fun n => sendsAgain.getD n (.proceed (.bytes 0))) ?_ ?_ 6
  · refine ⟨6, ?_⟩
    intro n late data addr isSendTo
    rw [List.getD_eq_default _ _ (by simpa [sendsAgain] using late)] at isSendTo
    cases isSendTo
  · intro n
    refine ⟨n + 6, by omega, .bytes 0, ?_⟩
    rw [List.getD_eq_default _ _ (by simp [sendsAgain])]

/-- Packets accepted between rounds are all queued, by induction on their number. -/
theorem sendTo_replicate (inetNtop : AddressFamily → List Byte → Option Text) (data : List Byte)
    (addr : SocketAddress) (n : Nat) (state : Sending) (idle : state.control = .idle)
    : (runFrom (Sending.step inetNtop) state
        (List.replicate n (.sendTo data addr))).socket.queuedSize
      = state.socket.queuedSize + n := by
  induction n generalizing state with
  | zero => rfl
  | succ n ih =>
      have accepts
          : state.step inetNtop (.sendTo data addr) = state.sendTo inetNtop data addr := by
        rw [Sending.step, if_pos (by rw [Sending.calling, idle])]
      obtain ⟨size, -⟩ := addUdpSendData_spec inetNtop state.socket
        ⟨state.accepted.length, data, addr⟩
      have stillIdle : (state.sendTo inetNtop data addr).control = .idle := idle
      rw [List.replicate_succ, runFrom_cons, accepts, ih _ stillIdle]
      change (state.socket.addUdpSendData _ _).1.queuedSize + n = _
      rw [size]
      omega

/-- The counter overflows with the packet that makes 2147483648 of them wait. -/
theorem udp_send_queue_counter_overflows
    : (runFrom (Sending.step fun _ _ => none) (.start 3 ⟨false, 0, 0⟩)
        (List.replicate (2 ^ 31) (.sendTo [] nilAddress))).socket.totalSendData.toInt
      ≠ (runFrom (Sending.step fun _ _ => none) (.start 3 ⟨false, 0, 0⟩)
        (List.replicate (2 ^ 31) (.sendTo [] nilAddress))).socket.queuedSize := by
  have accounted
      : Accounted (fun _ _ => none)
          (runFrom (Sending.step fun _ _ => none) (.start 3 ⟨false, 0, 0⟩)
            (List.replicate (2 ^ 31) (.sendTo [] nilAddress))) :=
    runFrom_invariant (fun _ action h => h.step action) (Accounted.start 3 ⟨false, 0, 0⟩) _
  have queued := sendTo_replicate (fun _ _ => none) [] nilAddress (2 ^ 31)
    (.start 3 ⟨false, 0, 0⟩) rfl
  have empty : (Sending.start 3 ⟨false, 0, 0⟩).socket.queuedSize = 0 := rfl
  rw [empty, Nat.zero_add] at queued
  have negative : (BitVec.ofNat 32 (2 ^ 31)).toInt = -2147483648 := by decide
  rw [accounted.counter, queued, negative]
  decide

end RtcBase.UdpSocket

import RtcBase.Buffers.Buffer
import RtcBase.Library.Heap

/-! `BufferQueue` as a bounded queue of packets. The queue and the free list hold pointers to buffers
on the heap, which move between them and are filled again; `none` is the use of a pointer to no
buffer or an access outside of memory.
-/

namespace RtcBase.Buffers

open Library

-----------------------------------------------------------------------------------------
-- The queue of buffers
-----------------------------------------------------------------------------------------

/-- A buffer of bytes. -/
abbrev Buffer := BufferT Byte

/-- The fields of `BufferQueue`, with the heap that its buffers are on. -/
structure BufferQueue where
  capacity : Nat
  defaultSize : Nat
  heap : Heap Buffer
  queue : List Nat
  freeList : List Nat

/-- What a call returns and leaves with the caller: the memory that it may read into, the variable
for the number of bytes, `none` for a null pointer, and whether the queue was notified.
-/
structure Outcome where
  returned : Bool
  buffer : List Byte
  bytes : Option Nat
  notified : Bool
  deriving DecidableEq, Repr

namespace BufferQueue

def construct (capacity defaultSize : Nat) : BufferQueue :=
  ⟨capacity, defaultSize, .empty, [], []⟩

def size (q : BufferQueue) : Nat := q.queue.length

/-- `BufferQueue::clear`. -/
def clear (q : BufferQueue) : BufferQueue :=
  { q with
    queue := []
    freeList := q.queue.foldl (fun freeList packet => freeList ++ [packet]) q.freeList }

/-- `BufferQueue::read_front` into memory of the size that the caller gives. -/
def readFront (q : BufferQueue) (buffer : List Byte) (bytesRead : Option Nat)
    : Option (Outcome × BufferQueue) :=
  match q.queue with
  | [] => some (⟨false, buffer, bytesRead, false⟩, q)
  | packet :: rest => do
      let wasWritable := q.queue.length < q.capacity
      let contents ← q.heap.objects packet
      let bytes := min buffer.length contents.size
      let data ← readMemory contents.data 0 bytes
      let buffer ← writeMemory buffer 0 data
      return (⟨true, buffer, bytesRead.map fun _ => bytes, !wasWritable⟩,
        { q with queue := rest, freeList := q.freeList ++ [packet] })

/-- The buffer for the next packet: one from the back of the free list or a new one. -/
def takePacket (memory : NewArray Byte) (q : BufferQueue) (bytes : Nat) : Nat × BufferQueue :=
  match q.freeList.getLast? with
  | some packet => (packet, { q with freeList := q.freeList.dropLast })
  | none =>
      (q.heap.next, { q with heap := q.heap.create (.construct memory bytes q.defaultSize) })

/-- `BufferQueue::write_back`. -/
def writeBack (memory : NewArray Byte) (q : BufferQueue) (data : List Byte)
    (bytesWritten : Option Nat)
    : Option (Outcome × BufferQueue) :=
  if q.queue.length = q.capacity then some (⟨false, [], bytesWritten, false⟩, q)
  else do
    let wasReadable := !q.queue.isEmpty
    let (packet, q) := q.takePacket memory data.length
    let contents ← q.heap.objects packet
    let contents ← contents.setData memory data
    let heap ← q.heap.modify packet fun _ => contents
    return (⟨true, [], bytesWritten.map fun _ => data.length, !wasReadable⟩,
      { q with heap := heap, queue := q.queue ++ [packet] })

end BufferQueue

/-- A call with the caller's memory and variable. -/
inductive Call where
  | writeBack (memory : NewArray Byte) (data : List Byte) (bytesWritten : Option Nat)
  | readFront (buffer : List Byte) (bytesRead : Option Nat)
  | clear

def BufferQueue.perform (q : BufferQueue) : Call → Option (Outcome × BufferQueue)
  | .writeBack memory data bytesWritten => q.writeBack memory data bytesWritten
  | .readFront buffer bytesRead => q.readFront buffer bytesRead
  | .clear => some (⟨true, [], none, false⟩, q.clear)

/-- The calls on one queue in turn. -/
def BufferQueue.performAll : BufferQueue → List Call → Option (List Outcome × BufferQueue)
  | q, [] => some ([], q)
  | q, call :: rest => do
      let (outcome, q) ← q.perform call
      let (outcomes, q) ← q.performAll rest
      return (outcome :: outcomes, q)

-----------------------------------------------------------------------------------------
-- The queue of packets
-----------------------------------------------------------------------------------------

/-- A bounded queue of packets. -/
structure Fifo where
  capacity : Nat
  packets : List (List Byte)
  deriving DecidableEq, Repr

/-- What a call is to do: a packet is appended whole while there is room, and the oldest packet is
removed and returned as far as it fits.
-/
def Fifo.perform (fifo : Fifo) : Call → Outcome × Fifo
  | .writeBack _ data bytesWritten =>
      if fifo.packets.length < fifo.capacity then
        (⟨true, [], bytesWritten.map fun _ => data.length, fifo.packets.isEmpty⟩,
          { fifo with packets := fifo.packets ++ [data] })
      else (⟨false, [], bytesWritten, false⟩, fifo)
  | .readFront buffer bytesRead =>
      match fifo.packets with
      | [] => (⟨false, buffer, bytesRead, false⟩, fifo)
      | packet :: rest =>
          let bytes := min buffer.length packet.length
          (⟨true, packet.take bytes ++ buffer.drop bytes, bytesRead.map fun _ => bytes,
              fifo.packets.length = fifo.capacity⟩,
            { fifo with packets := rest })
  | .clear => (⟨true, [], none, false⟩, { fifo with packets := [] })

def Fifo.performAll : Fifo → List Call → List Outcome × Fifo
  | fifo, [] => ([], fifo)
  | fifo, call :: rest =>
      let (outcome, fifo) := fifo.perform call
      let (outcomes, fifo) := fifo.performAll rest
      (outcome :: outcomes, fifo)

-----------------------------------------------------------------------------------------
-- Refinement
-----------------------------------------------------------------------------------------

/-- The bytes that a pointer leads to. -/
def bytesAt (heap : Heap Buffer) (packet : Nat) : Option (List Byte) :=
  (heap.objects packet).map BufferT.contents

/-- The queue of buffers stands for the queue of packets. Every buffer that was ever allocated is in
the queue or the free list, once.
-/
structure Represents (q : BufferQueue) (fifo : Fifo) : Prop where
  capacity : q.capacity = fifo.capacity
  contents : q.queue.map (bytesAt q.heap) = fifo.packets.map some
  live : ∀ packet ∈ q.queue ++ q.freeList,
    ∃ buffer, q.heap.objects packet = some buffer ∧ buffer.WellFormed
  distinct : (q.queue ++ q.freeList).Nodup
  allocated : q.heap.next = q.queue.length + q.freeList.length
  bounded : q.heap.next ≤ q.capacity

/-- A new queue is empty. -/
theorem represents_construct (capacity defaultSize : Nat)
    : Represents (.construct capacity defaultSize) ⟨capacity, []⟩ where
  capacity := rfl
  contents := rfl
  live := by simp [BufferQueue.construct]
  distinct := List.nodup_nil
  allocated := rfl
  bounded := Nat.zero_le _

variable {q : BufferQueue} {fifo : Fifo}

theorem Represents.length (h : Represents q fifo) : q.queue.length = fifo.packets.length := by
  have lengths := congrArg List.length h.contents
  simpa using lengths

/-- `clear` moves all buffers to the free list. -/
theorem Represents.clear (h : Represents q fifo)
    : Represents q.clear { fifo with packets := [] } := by
  have exchanged : List.Perm (q.freeList ++ q.queue) (q.queue ++ q.freeList) :=
    List.perm_append_comm
  have cleared : q.clear = { q with queue := [], freeList := q.freeList ++ q.queue } := by
    simp [BufferQueue.clear, ← List.flatMap_def]
  rw [cleared]
  refine ⟨h.capacity, rfl, ?_, ?_, ?_, h.bounded⟩
  · intro packet member
    exact h.live packet (exchanged.mem_iff.mp member)
  · exact exchanged.nodup_iff.mpr h.distinct
  · have allocated := h.allocated
    simp only [List.length_append, List.length_nil]
    omega

/-- `read_front` returns the oldest packet as far as it fits and frees its buffer. -/
theorem Represents.readFront (h : Represents q fifo) (buffer : List Byte) (bytesRead : Option Nat)
    : ∃ after,
        q.readFront buffer bytesRead
          = some ((fifo.perform (.readFront buffer bytesRead)).1, after)
        ∧ Represents after (fifo.perform (.readFront buffer bytesRead)).2 := by
  have contents := h.contents
  have lengths := h.length
  have allocated := h.allocated
  have bounded := h.bounded
  have capacity := h.capacity
  cases packets : fifo.packets with
  | nil =>
      have empty : q.queue = [] := by
        rw [← List.length_eq_zero_iff, lengths, packets, List.length_nil]
      refine ⟨q, ?_, ?_⟩
      · simp only [BufferQueue.readFront, empty, Fifo.perform, packets]
      · simpa only [Fifo.perform, packets] using h
  | cons bytes others =>
      cases queue : q.queue with
      | nil =>
          rw [queue, packets] at lengths
          cases lengths
      | cons packet rest =>
          obtain ⟨contained, live, wellFormed⟩ := h.live packet (by simp [queue])
          rw [queue, packets, List.map_cons, List.map_cons] at contents
          obtain ⟨first, later⟩ := List.cons.inj contents
          have holds : contained.contents = bytes := by
            simpa [bytesAt, live] using first
          have length : contained.size = bytes.length := by
            rw [← holds, wellFormed.length_contents]
          generalize taken : min buffer.length bytes.length = n
          have read : readMemory contained.data 0 n = some (bytes.take n) := by
            rw [← holds]
            exact wellFormed.read_front (by omega)
          have written := @writeMemory_append _ [] buffer (bytes.take n) 0 rfl
            (by rw [List.length_take]; omega)
          rw [List.nil_append, List.nil_append, List.length_take, Nat.min_eq_left (by omega)]
            at written
          have moved : List.Perm (rest ++ (q.freeList ++ [packet])) (q.queue ++ q.freeList) := by
            rw [queue, ← List.append_assoc]
            exact List.perm_append_singleton packet (rest ++ q.freeList)
          have counts : q.queue.length = rest.length + 1 := by rw [queue, List.length_cons]
          have full : (!decide (q.queue.length < q.capacity))
              = decide (fifo.packets.length = fifo.capacity) := by
            rw [← decide_not, decide_eq_decide]
            omega
          refine ⟨{ q with queue := rest, freeList := q.freeList ++ [packet] }, ?_, ?_⟩
          · rw [queue, packets] at full
            simp only [BufferQueue.readFront, queue, live, length, taken, read, written, full,
              Option.bind_eq_bind, Option.bind_some, Option.pure_def, Fifo.perform, packets]
          · simp only [Fifo.perform, packets]
            refine ⟨capacity, later, ?_, ?_, ?_, bounded⟩
            · intro other member
              exact h.live other (moved.mem_iff.mp member)
            · exact moved.nodup_iff.mpr h.distinct
            · simp only [List.length_append, List.length_singleton]
              omega

/-- A buffer is set aside for the next packet: it is in neither list, and the others are as before. -/
structure SetsAside (q : BufferQueue) (fifo : Fifo) (packet : Nat) : Prop where
  capacity : q.capacity = fifo.capacity
  contents : q.queue.map (bytesAt q.heap) = fifo.packets.map some
  live : ∀ other ∈ packet :: (q.queue ++ q.freeList),
    ∃ buffer, q.heap.objects other = some buffer ∧ buffer.WellFormed
  distinct : (packet :: (q.queue ++ q.freeList)).Nodup
  allocated : q.heap.next = q.queue.length + q.freeList.length + 1
  bounded : q.heap.next ≤ q.capacity

/-- A buffer from the free list, or a new one while there is room, is set aside. -/
theorem Represents.takePacket (h : Represents q fifo) (room : q.queue.length < q.capacity)
    (memory : NewArray Byte) (bytes : Nat)
    : ∃ packet taken,
        q.takePacket memory bytes = (packet, taken)
        ∧ taken.queue = q.queue
        ∧ SetsAside taken fifo packet := by
  have allocated := h.allocated
  rcases List.eq_nil_or_concat q.freeList with none | ⟨others, packet, split⟩
  · have last : q.freeList.getLast? = Option.none := by rw [none, List.getLast?_nil]
    rw [none, List.length_nil] at allocated
    -- the new buffer is at a new place, so the others are where they were
    have old (other : Nat) (member : other ∈ q.queue ++ q.freeList)
        : other ≠ q.heap.next ∧ (q.heap.create (.construct memory bytes q.defaultSize)).objects other
          = q.heap.objects other := by
      obtain ⟨buffer, live, -⟩ := h.live other member
      have before := q.heap.lt_next live
      have differ : other ≠ q.heap.next := by omega
      exact ⟨differ, Function.update_of_ne differ _ _⟩
    refine ⟨q.heap.next,
      { q with heap := q.heap.create (.construct memory bytes q.defaultSize) }, ?_, rfl, h.capacity,
      ?_, ?_, ?_, ?_, ?_⟩
    · rw [BufferQueue.takePacket, last]
    · rw [← h.contents]
      apply List.map_congr_left
      intro other member
      rw [bytesAt, bytesAt, (old other (List.mem_append_left _ member)).2]
    · intro other member
      rcases List.mem_cons.mp member with rfl | member
      · exact ⟨_, Function.update_self _ _ _, BufferT.wellFormed_construct _ _ _⟩
      · rw [(old other member).2]
        exact h.live other member
    · refine List.nodup_cons.mpr ⟨?_, h.distinct⟩
      intro member
      exact (old _ member).1 rfl
    · simp only [Heap.create, none, List.length_nil]
      omega
    · simp only [Heap.create]
      omega
  · have last : q.freeList.getLast? = some packet := by simp [split]
    have shorter : q.freeList.dropLast = others := by simp [split]
    have moved : List.Perm (packet :: (q.queue ++ others)) (q.queue ++ q.freeList) := by
      rw [split, List.concat_eq_append, ← List.append_assoc]
      exact (List.perm_append_singleton packet (q.queue ++ others)).symm
    have counts : q.freeList.length = others.length + 1 := by simp [split]
    refine ⟨packet, { q with freeList := others }, ?_, rfl, h.capacity, h.contents, ?_,
      moved.nodup_iff.mpr h.distinct, ?_, h.bounded⟩
    · rw [BufferQueue.takePacket, last, shorter]
    · intro other member
      exact h.live other (moved.mem_iff.mp member)
    · simp only
      omega

/-- The buffer that is set aside is filled with the packet and joins the queue. -/
theorem SetsAside.join {packet : Nat} (h : SetsAside q fifo packet) {buffer : Buffer}
    (wellFormed : buffer.WellFormed) {heap : Heap Buffer}
    (updated : heap.objects = Function.update q.heap.objects packet (some buffer))
    (next : heap.next = q.heap.next)
    : Represents { q with heap := heap, queue := q.queue ++ [packet] }
        { fifo with packets := fifo.packets ++ [buffer.contents] } := by
  obtain ⟨notMember, distinct⟩ := List.nodup_cons.mp h.distinct
  have moved
      : List.Perm (q.queue ++ [packet] ++ q.freeList) (packet :: (q.queue ++ q.freeList)) := by
    rw [List.append_assoc, List.singleton_append]
    exact List.perm_middle
  refine ⟨h.capacity, ?_, ?_, moved.nodup_iff.mpr h.distinct, ?_, ?_⟩
  · rw [List.map_append, List.map_append, ← h.contents]
    congr 1
    · apply List.map_congr_left
      intro other member
      have differ : other ≠ packet := by
        rintro rfl
        exact notMember (List.mem_append_left _ member)
      rw [bytesAt, bytesAt, updated, Function.update_of_ne differ]
    · rw [List.map_singleton, List.map_singleton, bytesAt, updated, Function.update_self,
        Option.map_some]
  · intro other member
    by_cases same : other = packet
    · exact ⟨buffer, by rw [same, updated, Function.update_self], wellFormed⟩
    · obtain ⟨contained, live, contains⟩ := h.live other (moved.mem_iff.mp member)
      exact ⟨contained, by rw [updated, Function.update_of_ne same, live], contains⟩
  · have allocated := h.allocated
    simp only [List.length_append, List.length_singleton]
    omega
  · rw [next]
    exact h.bounded

/-- `write_back` appends the packet whole while there is room. -/
theorem Represents.writeBack (h : Represents q fifo) (memory : NewArray Byte) (data : List Byte)
    (bytesWritten : Option Nat)
    : ∃ after,
        q.writeBack memory data bytesWritten
          = some ((fifo.perform (.writeBack memory data bytesWritten)).1, after)
        ∧ Represents after (fifo.perform (.writeBack memory data bytesWritten)).2 := by
  have lengths := h.length
  have allocated := h.allocated
  have bounded := h.bounded
  have capacity := h.capacity
  by_cases full : q.queue.length = q.capacity
  · have noRoom : ¬ fifo.packets.length < fifo.capacity := by omega
    refine ⟨q, ?_, ?_⟩
    · simp only [BufferQueue.writeBack, if_pos full, Fifo.perform, if_neg noRoom]
    · simpa only [Fifo.perform, if_neg noRoom] using h
  · have room : fifo.packets.length < fifo.capacity := by omega
    obtain ⟨packet, taken, takes, sameQueue, aside⟩ :=
      h.takePacket (by omega) memory data.length
    obtain ⟨old, live, wellFormed⟩ := aside.live packet List.mem_cons_self
    obtain ⟨buffer, sets, filled, holds⟩ := BufferT.setData_spec memory wellFormed.length_data data
    obtain ⟨heap, modifies, updated, next⟩ := Heap.modify_spec live fun _ => buffer
    have empty : q.queue.isEmpty = fifo.packets.isEmpty := by
      rw [Bool.eq_iff_iff, List.isEmpty_iff_length_eq_zero, List.isEmpty_iff_length_eq_zero, lengths]
    refine ⟨{ taken with heap := heap, queue := taken.queue ++ [packet] }, ?_, ?_⟩
    · simp only [BufferQueue.writeBack, if_neg full, takes, live, sets, modifies, empty, Bool.not_not,
        Option.bind_eq_bind, Option.bind_some, Option.pure_def, Fifo.perform, if_pos room]
    · have joined := aside.join filled updated next
      rw [holds] at joined
      simpa only [Fifo.perform, if_pos room] using joined

/-- Every call does to the queue of buffers what it is to do to the queue of packets. -/
theorem Represents.perform (h : Represents q fifo) (call : Call)
    : ∃ after,
        q.perform call = some ((fifo.perform call).1, after)
        ∧ Represents after (fifo.perform call).2 := by
  cases call with
  | writeBack memory data bytesWritten => exact h.writeBack memory data bytesWritten
  | readFront buffer bytesRead => exact h.readFront buffer bytesRead
  | clear => exact ⟨q.clear, rfl, h.clear⟩

/-- So do all calls in turn, by induction on the calls. -/
theorem Represents.performAll (h : Represents q fifo) (calls : List Call)
    : ∃ after,
        q.performAll calls = some ((fifo.performAll calls).1, after)
        ∧ Represents after (fifo.performAll calls).2 := by
  induction calls generalizing q fifo with
  | nil => exact ⟨q, rfl, h⟩
  | cons call rest ih =>
      obtain ⟨middle, performs, represents⟩ := h.perform call
      obtain ⟨after, later, final⟩ := ih represents
      refine ⟨after, ?_, final⟩
      rw [BufferQueue.performAll, performs]
      simp only [Option.bind_eq_bind, Option.bind_some, later]
      rfl

/-- No call changes the capacity, by induction on the calls. -/
theorem Fifo.capacity_performAll (fifo : Fifo) (calls : List Call)
    : (fifo.performAll calls).2.capacity = fifo.capacity := by
  induction calls generalizing fifo with
  | nil => rfl
  | cons call rest ih =>
      have one : (fifo.perform call).2.capacity = fifo.capacity := by
        cases call with
        | writeBack memory data bytesWritten =>
            rw [Fifo.perform]
            split <;> rfl
        | readFront buffer bytesRead =>
            rw [Fifo.perform]
            split <;> rfl
        | clear => rfl
      exact (ih _).trans one

/-- A `BufferQueue` is a bounded queue of packets: in every sequence of calls each call returns what
it is to return, the queue holds the packets that it is to hold and never more than its capacity,
and so do the queue and the free list together with all the buffers that were ever allocated.
-/
theorem buffer_queue_is_bounded_fifo (capacity defaultSize : Nat) (calls : List Call)
    : ∃ q,
        (BufferQueue.construct capacity defaultSize).performAll calls
          = some ((Fifo.performAll ⟨capacity, []⟩ calls).1, q)
        ∧ q.queue.map (bytesAt q.heap) = (Fifo.performAll ⟨capacity, []⟩ calls).2.packets.map some
        ∧ q.size ≤ capacity
        ∧ q.heap.next = q.queue.length + q.freeList.length
        ∧ q.heap.next ≤ capacity := by
  obtain ⟨q, performs, represents⟩ := (represents_construct capacity defaultSize).performAll calls
  have same : q.capacity = capacity := represents.capacity.trans (Fifo.capacity_performAll _ calls)
  have allocated := represents.allocated
  have bounded := represents.bounded
  refine ⟨q, performs, represents.contents, ?_, allocated, by omega⟩
  rw [BufferQueue.size]
  omega

end RtcBase.Buffers

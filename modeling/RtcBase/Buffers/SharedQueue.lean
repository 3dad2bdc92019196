import RtcBase.Buffers.Queue
import RtcBase.Threads.CriticalSection

/-! A `BufferQueue` that threads share. Every method is one scope of the queue's critical section,
here statement by statement, with the local variables that the next statement needs.
-/

namespace RtcBase.Buffers

open Library
open Threads (Bodies CriticalSection)
open Threads.CriticalSection

/-- A call of a method. -/
inductive Request where
  | call (call : Call)
  | size

/-- What a method leaves with its caller. -/
inductive Answer where
  | outcome (outcome : Outcome)
  | size (size : Nat)
  deriving DecidableEq, Repr

/-- The local variables of the methods, by the statement that comes next. -/
inductive Locals where
  | size
  -- `clear`: the condition of the loop, `push_back` and `pop_front`
  | clearTest
  | clearPush
  | clearPop
  -- `read_front`
  | readTest (buffer : List Byte) (bytesRead : Option Nat)
  | readWritable (buffer : List Byte) (bytesRead : Option Nat)
  | readPacket (buffer : List Byte) (bytesRead : Option Nat) (wasWritable : Bool)
  | readPop (buffer : List Byte) (bytesRead : Option Nat) (wasWritable : Bool) (packet : Nat)
  | readSize (buffer : List Byte) (bytesRead : Option Nat) (wasWritable : Bool) (packet : Nat)
  | readCopy (buffer : List Byte) (bytesRead : Option Nat) (wasWritable : Bool) (packet bytes : Nat)
  | readFree (buffer : List Byte) (bytesRead : Option Nat) (wasWritable : Bool) (packet : Nat)
  -- `write_back`
  | writeTest (memory : NewArray Byte) (data : List Byte) (bytesWritten : Option Nat)
  | writeReadable (memory : NewArray Byte) (data : List Byte) (bytesWritten : Option Nat)
  | writeTake (memory : NewArray Byte) (data : List Byte) (bytesWritten : Option Nat)
      (wasReadable : Bool)
  | writePop (memory : NewArray Byte) (data : List Byte) (bytesWritten : Option Nat)
      (wasReadable : Bool) (packet : Nat)
  | writeSet (memory : NewArray Byte) (data : List Byte) (bytesWritten : Option Nat)
      (wasReadable : Bool) (packet : Nat)
  | writePush (bytesWritten : Option Nat) (wasReadable : Bool) (packet : Nat)

/-- The first statement after the constructor of `CritScope`. -/
def Locals.start : Request → Locals
  | .size => .size
  | .call .clear => .clearTest
  | .call (.readFront buffer bytesRead) => .readTest buffer bytesRead
  | .call (.writeBack memory data bytesWritten) => .writeTest memory data bytesWritten

/-- The statements of `size`, `clear`, `read_front` and `write_back`. -/
def Locals.statement : Locals → BufferQueue → Option ((Locals ⊕ Answer) × BufferQueue)
  | .size, q => some (.inr (.size q.queue.length), q)
  | .clearTest, q =>
      some (if q.queue.isEmpty then .inr (.outcome ⟨true, [], none, false⟩) else .inl .clearPush, q)
  | .clearPush, q => do
      let packet ← q.queue.head?
      return (.inl .clearPop, { q with freeList := q.freeList ++ [packet] })
  | .clearPop, q => do
      let queue ← q.queue.tail?
      return (.inl .clearTest, { q with queue := queue })
  | .readTest buffer bytesRead, q =>
      some
        (if q.queue.isEmpty then .inr (.outcome ⟨false, buffer, bytesRead, false⟩)
          else .inl (.readWritable buffer bytesRead),
        q)
  | .readWritable buffer bytesRead, q =>
      some (.inl (.readPacket buffer bytesRead (q.queue.length < q.capacity)), q)
  | .readPacket buffer bytesRead wasWritable, q => do
      let packet ← q.queue.head?
      return (.inl (.readPop buffer bytesRead wasWritable packet), q)
  | .readPop buffer bytesRead wasWritable packet, q => do
      let queue ← q.queue.tail?
      return (.inl (.readSize buffer bytesRead wasWritable packet), { q with queue := queue })
  | .readSize buffer bytesRead wasWritable packet, q => do
      let contents ← q.heap.objects packet
      let bytes := min buffer.length contents.size
      return (.inl (.readCopy buffer bytesRead wasWritable packet bytes), q)
  | .readCopy buffer bytesRead wasWritable packet bytes, q => do
      let contents ← q.heap.objects packet
      let data ← readMemory contents.data 0 bytes
      let buffer ← writeMemory buffer 0 data
      return (.inl (.readFree buffer (bytesRead.map fun _ => bytes) wasWritable packet), q)
  | .readFree buffer bytesRead wasWritable packet, q =>
      some
        (.inr (.outcome ⟨true, buffer, bytesRead, !wasWritable⟩),
        { q with freeList := q.freeList ++ [packet] })
  | .writeTest memory data bytesWritten, q =>
      some
        (if q.queue.length = q.capacity then .inr (.outcome ⟨false, [], bytesWritten, false⟩)
          else .inl (.writeReadable memory data bytesWritten),
        q)
  | .writeReadable memory data bytesWritten, q =>
      some (.inl (.writeTake memory data bytesWritten !q.queue.isEmpty), q)
  | .writeTake memory data bytesWritten wasReadable, q =>
      match q.freeList.getLast? with
      | some packet => some (.inl (.writePop memory data bytesWritten wasReadable packet), q)
      | none =>
          some
            (.inl (.writeSet memory data bytesWritten wasReadable q.heap.next),
            { q with heap := q.heap.create (.construct memory data.length q.defaultSize) })
  | .writePop memory data bytesWritten wasReadable packet, q =>
      if q.freeList.isEmpty then none
      else
        some
          (.inl (.writeSet memory data bytesWritten wasReadable packet),
          { q with freeList := q.freeList.dropLast })
  | .writeSet memory data bytesWritten wasReadable packet, q => do
      let contents ← q.heap.objects packet
      let contents ← contents.setData memory data
      let heap ← q.heap.modify packet fun _ => contents
      return (.inl (.writePush (bytesWritten.map fun _ => data.length) wasReadable packet),
        { q with heap := heap })
  | .writePush bytesWritten wasReadable packet, q =>
      some
        (.inr (.outcome ⟨true, [], bytesWritten, !wasReadable⟩),
        { q with queue := q.queue ++ [packet] })

/-- The methods of a `BufferQueue`. -/
def methods : Bodies BufferQueue Request Locals Answer where
  start := Locals.start
  statement := Locals.statement

/-- What a method is to do with a queue of packets. -/
def Fifo.answer (fifo : Fifo) : Request → Answer × Fifo
  | .size => (.size fifo.packets.length, fifo)
  | .call call => (.outcome (fifo.perform call).1, (fifo.perform call).2)

-----------------------------------------------------------------------------------------
-- The methods one by one
-----------------------------------------------------------------------------------------

variable {q after : BufferQueue} {outcome : Outcome}

/-- `clear` moves the buffers one at a time, by induction on the queue. -/
theorem clear_reaches (q : BufferQueue)
    : Reaches methods (.inl .clearTest, q) (.inr (.outcome ⟨true, [], none, false⟩), q.clear) := by
  generalize content : q.queue = queue
  induction queue generalizing q with
  | nil =>
      have same : q.clear = q := by
        cases q
        simp_all [BufferQueue.clear]
      have tests
          : methods.statement .clearTest q
            = some (.inr (.outcome ⟨true, [], none, false⟩), q) := by
        simp [methods, Locals.statement, content]
      rw [same]
      exact .first tests .refl
  | cons packet rest ih =>
      have tests : methods.statement .clearTest q = some (.inl .clearPush, q) := by
        simp [methods, Locals.statement, content]
      have pushes
          : methods.statement .clearPush q
            = some (.inl .clearPop, { q with freeList := q.freeList ++ [packet] }) := by
        simp [methods, Locals.statement, content]
      have pops
          : methods.statement .clearPop { q with freeList := q.freeList ++ [packet] }
            = some
                (.inl .clearTest,
                { q with freeList := q.freeList ++ [packet], queue := rest }) := by
        simp [methods, Locals.statement, content]
      have same
          : q.clear
            = BufferQueue.clear { q with freeList := q.freeList ++ [packet], queue := rest } := by
        simp [BufferQueue.clear, content]
      rw [same]
      exact .first tests (.first pushes (.first pops (ih _ rfl)))

/-- `read_front` does statement by statement what it does as a whole. -/
theorem readFront_reaches {buffer : List Byte} {bytesRead : Option Nat}
    (reads : q.readFront buffer bytesRead = some (outcome, after))
    : Reaches methods (.inl (.readTest buffer bytesRead), q) (.inr (.outcome outcome), after) := by
  unfold BufferQueue.readFront at reads
  split at reads
  next empty =>
    obtain ⟨rfl, rfl⟩ := Prod.mk.inj (Option.some.inj reads)
    have tests
        : methods.statement (.readTest buffer bytesRead) q
          = some (.inr (.outcome ⟨false, buffer, bytesRead, false⟩), q) := by
      simp [methods, Locals.statement, empty]
    exact .first tests .refl
  next packet rest content =>
    obtain ⟨contents, live, data, read, memory, written, rfl, rfl⟩
        : ∃ contents, q.heap.objects packet = some contents
            ∧ ∃ data, readMemory contents.data 0 (min buffer.length contents.size) = some data
              ∧ ∃ memory, writeMemory buffer 0 data = some memory
                ∧ Outcome.mk true memory
                    (bytesRead.map fun _ => min buffer.length contents.size)
                    (!decide (q.queue.length < q.capacity))
                  = outcome
                ∧ { q with queue := rest, freeList := q.freeList ++ [packet] } = after := by
      simpa [Option.bind_eq_some_iff] using reads
    have tests
        : methods.statement (.readTest buffer bytesRead) q
          = some (.inl (.readWritable buffer bytesRead), q) := by
      simp [methods, Locals.statement, content]
    have compares
        : methods.statement (.readWritable buffer bytesRead) q
          = some (.inl (.readPacket buffer bytesRead (q.queue.length < q.capacity)), q) := rfl
    generalize (decide (q.queue.length < q.capacity)) = wasWritable at compares ⊢
    have finds
        : methods.statement (.readPacket buffer bytesRead wasWritable) q
          = some (.inl (.readPop buffer bytesRead wasWritable packet), q) := by
      simp [methods, Locals.statement, content]
    have pops
        : methods.statement (.readPop buffer bytesRead wasWritable packet) q
          = some
              (.inl (.readSize buffer bytesRead wasWritable packet), { q with queue := rest }) := by
      simp [methods, Locals.statement, content]
    have measures
        : methods.statement (.readSize buffer bytesRead wasWritable packet) { q with queue := rest }
          = some
              (.inl (.readCopy buffer bytesRead wasWritable packet
                (min buffer.length contents.size)),
              { q with queue := rest }) := by
      simp [methods, Locals.statement, live]
    have copies
        : methods.statement
            (.readCopy buffer bytesRead wasWritable packet (min buffer.length contents.size))
            { q with queue := rest }
          = some
              (.inl (.readFree memory (bytesRead.map fun _ => min buffer.length contents.size)
                wasWritable packet),
              { q with queue := rest }) := by
      simp [methods, Locals.statement, live, read, written]
    exact .first tests (.first compares (.first finds (.first pops (.first measures
      (.first copies (.first rfl .refl))))))

/-- `write_back` does statement by statement what it does as a whole. -/
theorem writeBack_reaches {memory : NewArray Byte} {data : List Byte} {bytesWritten : Option Nat}
    (writes : q.writeBack memory data bytesWritten = some (outcome, after))
    : Reaches methods (.inl (.writeTest memory data bytesWritten), q)
        (.inr (.outcome outcome), after) := by
  unfold BufferQueue.writeBack at writes
  split at writes
  next full =>
    obtain ⟨rfl, rfl⟩ := Prod.mk.inj (Option.some.inj writes)
    have tests
        : methods.statement (.writeTest memory data bytesWritten) q
          = some (.inr (.outcome ⟨false, [], bytesWritten, false⟩), q) := by
      simp [methods, Locals.statement, full]
    exact .first tests .refl
  next room =>
    generalize taking : q.takePacket memory data.length = taken at writes
    obtain ⟨packet, aside⟩ := taken
    obtain ⟨contents, live, filled, sets, heap, modifies, rfl, rfl⟩
        : ∃ contents, aside.heap.objects packet = some contents
            ∧ ∃ filled, contents.setData memory data = some filled
              ∧ ∃ heap, aside.heap.modify packet (fun _ => filled) = some heap
                ∧ Outcome.mk true [] (bytesWritten.map fun _ => data.length) (!!q.queue.isEmpty)
                  = outcome
                ∧ { aside with heap := heap, queue := aside.queue ++ [packet] } = after := by
      simpa [Option.bind_eq_some_iff] using writes
    have tests
        : methods.statement (.writeTest memory data bytesWritten) q
          = some (.inl (.writeReadable memory data bytesWritten), q) := by
      simp [methods, Locals.statement, room]
    have looks
        : methods.statement (.writeReadable memory data bytesWritten) q
          = some (.inl (.writeTake memory data bytesWritten !q.queue.isEmpty), q) := rfl
    generalize (!q.queue.isEmpty) = wasReadable at looks ⊢
    have sets
        : methods.statement (.writeSet memory data bytesWritten wasReadable packet) aside
          = some
              (.inl (.writePush (bytesWritten.map fun _ => data.length) wasReadable packet),
              { aside with heap := heap }) := by
      simp [methods, Locals.statement, live, sets, modifies]
    refine .first tests (.first looks ?_)
    have onward
        : Reaches methods (.inl (.writeSet memory data bytesWritten wasReadable packet), aside)
            (.inr (.outcome ⟨true, [], bytesWritten.map fun _ => data.length, !wasReadable⟩),
            { aside with heap := heap, queue := aside.queue ++ [packet] }) :=
      .first sets (.first rfl .refl)
    unfold BufferQueue.takePacket at taking
    split at taking
    next last found =>
      obtain ⟨rfl, rfl⟩ := Prod.mk.inj taking
      have finds
          : methods.statement (.writeTake memory data bytesWritten wasReadable) q
            = some (.inl (.writePop memory data bytesWritten wasReadable last), q) := by
        simp [methods, Locals.statement, found]
      have nonempty : q.freeList ≠ [] := by
        intro empty
        simp [empty] at found
      have pops
          : methods.statement (.writePop memory data bytesWritten wasReadable last) q
            = some
                (.inl (.writeSet memory data bytesWritten wasReadable last),
                { q with freeList := q.freeList.dropLast }) := by
        simp [methods, Locals.statement, nonempty]
      exact .first finds (.first pops onward)
    next none =>
      obtain ⟨rfl, rfl⟩ := Prod.mk.inj taking
      have creates
          : methods.statement (.writeTake memory data bytesWritten wasReadable) q
            = some
                (.inl (.writeSet memory data bytesWritten wasReadable q.heap.next),
                { q with
                  heap := q.heap.create (.construct memory data.length q.defaultSize) }) := by
        simp [methods, Locals.statement, none]
      exact .first creates onward

/-- Each call does statement by statement what it does as a whole. -/
theorem perform_reaches {call : Call} (performs : q.perform call = some (outcome, after))
    : Reaches methods (.inl (methods.start (.call call)), q) (.inr (.outcome outcome), after) := by
  cases call with
  | writeBack memory data bytesWritten => exact writeBack_reaches performs
  | readFront buffer bytesRead => exact readFront_reaches performs
  | clear =>
      obtain ⟨rfl, rfl⟩ := Prod.mk.inj (Option.some.inj performs)
      exact clear_reaches q

/-- The methods implement a queue of packets. -/
theorem methods_implement : Implements methods Fifo.answer Represents := by
  intro q fifo request represents
  cases request with
  | size =>
      have counts
          : methods.statement .size q = some (.inr (.size fifo.packets.length), q) := by
        simp [methods, Locals.statement, represents.length]
      exact ⟨q, .first counts .refl, represents⟩
  | call call =>
      obtain ⟨after, performs, stands⟩ := represents.perform call
      exact ⟨after, perform_reaches performs, stands⟩

-----------------------------------------------------------------------------------------
-- Threads
-----------------------------------------------------------------------------------------

variable {θ : Type*} [DecidableEq θ]

/-- In every interleaving of any number of threads that share a `BufferQueue`, with their statements
apart and every statement's reads apart from its writes, the methods are linearizable to a bounded
queue of packets: each call has its effect at one moment between its beginning and its return and
returns what the queue of packets returns at that moment. Nothing undefined happens, at most one
thread is inside a method, some thread can step while a call is under way, and whoever is inside
returns the answer after steps of its own alone. While nobody is inside, the buffers hold the
packets.
-/
theorem shared_queue_linearizable (capacity defaultSize : Nat) {labels : List (Label θ Request)}
    {reached : Shared θ BufferQueue Request Locals Answer × List (Notice θ Request Answer)}
    (runs
      : reached
        ∈ runSchedule (Shared.step methods) (.create (.construct capacity defaultSize)) labels)
    : ∃ fifo,
        (sequential θ Fifo.answer).Linearized ⟨capacity, []⟩ reached.2 reached.1.phases fifo
        ∧ ((∀ thread, (reached.1.pc thread).progress = none) → Represents reached.1.data fifo)
        ∧ (∀ thread operation place,
            (reached.1.pc thread).progress = some (operation, place)
            → (∀ other, (reached.1.pc other).progress.isSome = true → other = thread)
              ∧ reached.1.RunsTo methods thread fun later =>
                  later.pc thread = .left operation (fifo.answer operation).1)
        ∧ ∀ thread,
            reached.1.pc thread ≠ .undefined
            ∧ (reached.1.pc thread ≠ .outside
              → ∃ able, (reached.1.run methods able).isSome = true) := by
  obtain ⟨fifo, owner, consistent, calls⟩ :=
    runSchedule_linearizes methods_implement (represents_construct capacity defaultSize) runs
  refine ⟨fifo, calls, ?_, ?_, fun thread => ⟨consistent.defined thread, ?_⟩⟩
  · intro nobody
    refine consistent.quiet ?_
    cases owned : owner with
    | none => rfl
    | some thread =>
        have inside := (consistent.owns thread).mpr owned
        simp [nobody thread] at inside
  · intro thread operation place inside
    refine ⟨?_, consistent.holder_leaves inside⟩
    intro other alsoInside
    have owns := (consistent.owns thread).mp (by rw [inside]; rfl)
    rw [(consistent.owns other).mp alsoInside, Option.some.injEq] at owns
    exact owns
  · exact consistent.some_thread_runs

/-- One thread writes a packet while another one waits to read it. -/
def writeAndRead : List (Label Bool Request) :=
  [.call true (.call (.writeBack ⟨fun n => List.replicate n 0#8, fun _ => List.length_replicate⟩
      [7, 8] none)),
    .run true, .call false (.call (.readFront [0, 0, 0] (some 0)))]
  ++ List.replicate 12 (.run true) ++ List.replicate 17 (.run false)

/-- What the threads were returned. -/
def returned : List (Notice θ Request Answer) → List (θ × Answer) :=
  List.filterMap fun notice =>
    match notice with
    | .returned thread answer => some (thread, answer)
    | _ => none

/-- Witness: the packet is read as it was written, and its buffer is in the free list. -/
theorem shared_queue_linearizable_writeAndRead
    : ∃ reached
        ∈ runSchedule (Shared.step methods) (.create (.construct 1 2)) writeAndRead,
        returned reached.2
          = [(true, .outcome ⟨true, [], none, true⟩),
              (false, .outcome ⟨true, [7, 8, 0], some 2, true⟩)]
        ∧ reached.1.data.freeList = [0]
        ∧ ∃ fifo, Represents reached.1.data fifo := by
  obtain ⟨reached, runs⟩ := Option.isSome_iff_exists.mp
    (show (runSchedule (Shared.step methods) (.create (.construct 1 2)) writeAndRead).isSome = true
      by decide)
  have observed
      : (runSchedule (Shared.step methods) (.create (.construct 1 2)) writeAndRead).map
          (fun reached =>
            (returned reached.2, reached.1.data.freeList,
              (reached.1.pc true).progress.isNone, (reached.1.pc false).progress.isNone))
        = some
            ([(true, .outcome ⟨true, [], none, true⟩),
                (false, .outcome ⟨true, [7, 8, 0], some 2, true⟩)],
              [0], true, true) := by decide
  rw [runs] at observed
  obtain ⟨answers, freed, first, second⟩
      : returned reached.2 = _
        ∧ reached.1.data.freeList = [0]
        ∧ (reached.1.pc true).progress = none
        ∧ (reached.1.pc false).progress = none := by simpa using observed
  obtain ⟨fifo, -, quiet, -⟩ := shared_queue_linearizable 1 2 runs
  refine ⟨reached, runs, answers, freed, fifo, quiet fun thread => ?_⟩
  cases thread
  · exact second
  · exact first

end RtcBase.Buffers

import RtcBase.Library.Interleaving
import Mathlib.Tactic.Common

/-! The worker thread of `platform_thread.cpp`: the owner starts and stops it, and the worker calls
its function in a loop until the function or the stop flag ends it, in any interleaving of the two.
Nothing keeps the owner from a second start, which leaves two workers and one handle, and a thread
may not be created; the protocol holds for an owner that starts only what is not running.
-/

namespace RtcBase.Threads

open RtcBase.Library

namespace PlatformThread

/-- Where the worker is in `run`. -/
inductive Worker where
  -- it has returned
  | ended
  -- about to call the function
  | calling
  -- in `nanosleep` after a call that wants more
  | napping
  -- about to read the stop flag
  | testing
deriving DecidableEq, Repr

/-- Where the owner is in `stop`. -/
inductive Owner where
  | outside
  | joining
  | clearingFlag
  | clearingThread
deriving DecidableEq, Repr

/-- What `pthread_create` does: it creates a thread and stores its handle, or it fails and leaves
anything in the handle.
-/
inductive Creation where
  | created
  | failed (left : Option Nat)
deriving DecidableEq, Repr

/-- What can be seen of the two threads: `started` and `stopped` are the returns of `start` and
`stop`, `requested` is the moment from which the worker is to end.
-/
inductive Notice where
  | started
  | called
  | ended
  | requested
  | stopped
deriving DecidableEq, Repr

end PlatformThread

open PlatformThread

structure PlatformThread where
  -- constructed with a `ThreadRunFunction`, which is called once and not told to stop
  hasRunFunction : Bool
  stopFlag : Int
  -- `_thread`: 0, or the number of a thread
  handle : Option Nat
  -- the threads created so far, numbered in this order
  workers : List Worker
  owner : Owner
deriving DecidableEq, Repr

namespace PlatformThread

def create (hasRunFunction : Bool) : PlatformThread where
  hasRunFunction := hasRunFunction
  stopFlag := 0
  handle := none
  workers := []
  owner := .outside

/-- `is_running`. -/
def isRunning (thread : PlatformThread) : Bool := thread.handle.isSome

/-- The thread of a number, if there is one; else it counts as ended. -/
def workerAt (thread : PlatformThread) (number : Nat) : Worker :=
  thread.workers.getD number .ended

/-- The worker that the handle names. -/
def worker (thread : PlatformThread) : Worker := (thread.handle.map thread.workerAt).getD .ended

def setWorker (thread : PlatformThread) (number : Nat) (place : Worker) : PlatformThread :=
  { thread with workers := thread.workers.set number place }

/-- A call of the function by a worker; `more` is what a `ThreadRunFunctionDeprecated` returns. -/
def callFunction (thread : PlatformThread) (number : Nat) (more : Bool)
    : PlatformThread × List Notice :=
  if thread.hasRunFunction then
    (thread.setWorker number .ended, [.called, .ended])
  else if !more then
    (thread.setWorker number .ended, [.called, .ended])
  else
    (thread.setWorker number .napping, [.called])

/-- One step of a worker. -/
def runWorker (thread : PlatformThread) (number : Nat) (more : Bool)
    : Option (PlatformThread × List Notice) :=
  match thread.workerAt number with
  | .ended => none
  | .calling => some (thread.callFunction number more)
  | .napping => some (thread.setWorker number .testing, [])
  | .testing =>
      if thread.stopFlag ≠ 0 then
        some (thread.setWorker number .ended, [.ended])
      else
        some (thread.setWorker number .calling, [])

/-- `start`. That no thread could be created is logged, and nothing else comes of it. -/
def start (thread : PlatformThread) : Creation → PlatformThread × List Notice
  | .created =>
      ({ thread with
          handle := some thread.workers.length
          workers := thread.workers ++ [.calling] }, [.started])
  | .failed left => ({ thread with handle := left }, [])

/-- The beginning of `stop`. -/
def stop (thread : PlatformThread) : PlatformThread × List Notice :=
  if !thread.isRunning then
    (thread, [])
  else if !thread.hasRunFunction then
    ({ thread with stopFlag := thread.stopFlag + 1, owner := .joining }, [.requested])
  else
    ({ thread with owner := .joining }, [.requested])

/-- One step of the owner inside `stop`. `pthread_join` waits for the worker that the handle names;
where there is none it fails, and that is logged only.
-/
def runOwner (thread : PlatformThread) : Option (PlatformThread × List Notice) :=
  match thread.owner with
  | .outside => none
  | .joining =>
      if thread.worker = .ended then
        some ({ thread with owner := .clearingFlag }, [])
      else
        none
  | .clearingFlag =>
      some ({ thread with
        stopFlag := if !thread.hasRunFunction then 0 else thread.stopFlag
        owner := .clearingThread }, [])
  | .clearingThread => some ({ thread with handle := none, owner := .outside }, [.stopped])

inductive Label where
  | start (creation : Creation)
  | stop
  | owner
  | worker (number : Nat) (more : Bool)
deriving DecidableEq, Repr

/-- One step of any thread. The owner is one thread, which is inside one call at a time. -/
def step (thread : PlatformThread) : Label → Option (PlatformThread × List Notice)
  | .start creation => if thread.owner = .outside then some (thread.start creation) else none
  | .stop => if thread.owner = .outside then some thread.stop else none
  | .owner => thread.runOwner
  | .worker number more => thread.runWorker number more

/-- `start` is called only while the thread is not running, and a thread is created. -/
def StartsOnce (thread : PlatformThread) : Label → Prop
  | .start creation => thread.isRunning = false ∧ creation = .created
  | _ => True

instance decidableStartsOnce (thread : PlatformThread)
    : (label : Label) → Decidable (thread.StartsOnce label)
  | .start creation =>
      inferInstanceAs (Decidable (thread.isRunning = false ∧ creation = .created))
  | .stop => isTrue trivial
  | .owner => isTrue trivial
  | .worker _ _ => isTrue trivial

section Workers

variable {thread : PlatformThread} {number : Nat}

/-- The handle names a thread, and all others have ended. -/
structure Owned (thread : PlatformThread) : Prop where
  named : ∀ number, thread.handle = some number → number < thread.workers.length
  others : ∀ number, thread.handle ≠ some number → thread.workerAt number = .ended

theorem worker_of_handle (named : thread.handle = some number)
    : thread.worker = thread.workerAt number := by simp [worker, named]

/-- A worker that can take a step is the one that the handle names. -/
theorem Owned.handle_of_run (owned : thread.Owned) {more : Bool}
    {reached : PlatformThread × List Notice} (enabled : reached ∈ thread.runWorker number more)
    : thread.handle = some number := by
  by_contra other
  simp [runWorker, owned.others number other] at enabled

@[simp] theorem setWorker_length (place : Worker)
    : (thread.setWorker number place).workers.length = thread.workers.length := by
  simp [setWorker]

theorem workerAt_setWorker (created : number < thread.workers.length) (place : Worker)
    : (thread.setWorker number place).workerAt number = place := by
  simp [setWorker, workerAt, created, List.getD_eq_getElem?_getD]

@[simp] theorem setWorker_handle (place : Worker)
    : (thread.setWorker number place).handle = thread.handle := rfl

@[simp] theorem setWorker_stopFlag (place : Worker)
    : (thread.setWorker number place).stopFlag = thread.stopFlag := rfl

@[simp] theorem setWorker_hasRunFunction (place : Worker)
    : (thread.setWorker number place).hasRunFunction = thread.hasRunFunction := rfl

/-- The worker that the handle names moves, and no other one. -/
theorem Owned.setWorker (owned : thread.Owned) (named : thread.handle = some number)
    (place : Worker)
    : (thread.setWorker number place).Owned ∧ (thread.setWorker number place).worker = place := by
  have created := owned.named number named
  refine ⟨⟨?_, ?_⟩, ?_⟩
  · intro other handle
    simpa [PlatformThread.setWorker] using owned.named other handle
  · intro other handle
    have different : number ≠ other := by
      rintro rfl
      exact handle named
    have ended := owned.others other handle
    simpa [PlatformThread.setWorker, workerAt, List.getD_eq_getElem?_getD, List.getElem?_set,
      different] using ended
  · have kept : (thread.setWorker number place).handle = some number := named
    rw [worker_of_handle kept, workerAt_setWorker created]

/-- A thread that is created for no other one is the one that the handle names. -/
theorem Owned.start (owned : thread.Owned) (idle : thread.isRunning = false)
    : (thread.start .created).1.Owned ∧ (thread.start .created).1.worker = .calling := by
  have none : thread.handle = none := by simpa [isRunning] using idle
  refine ⟨⟨?_, ?_⟩, ?_⟩
  · intro number handle
    obtain rfl : thread.workers.length = number := by simpa [PlatformThread.start] using handle
    simp [PlatformThread.start]
  · intro number handle
    have different : number ≠ thread.workers.length := by
      rintro rfl
      exact handle rfl
    have ended := owned.others number (by simp [none])
    simp only [workerAt, List.getD_eq_getElem?_getD, PlatformThread.start] at ended ⊢
    rcases Nat.lt_or_gt_of_ne different with earlier | later
    · rwa [List.getElem?_append_left earlier]
    · rw [List.getElem?_eq_none (by simpa using Nat.succ_le_of_lt later)]
      rfl
  · simp [worker, PlatformThread.start, workerAt]

/-- Nothing is left of a worker that has ended once the handle is cleared. -/
theorem Owned.clear (owned : thread.Owned) (ended : thread.worker = .ended) (owner : Owner)
    : ({ thread with handle := none, owner } : PlatformThread).Owned := by
  refine ⟨by simp, ?_⟩
  intro number _
  by_cases named : thread.handle = some number
  · exact (worker_of_handle named).symm.trans ended
  · exact owned.others number named

end Workers

section Protocol

/-- The life of the worker as its owner may rely on it. -/
inductive Phase where
  | idle
  | running (calls : Nat)
  | finished
  | stopping (calls since : Nat)
  | joined
deriving DecidableEq, Repr

/-- The protocol: after every start the function is called at least once before the worker ends;
after a request it is called at most once more; `stop` returns only once the worker has ended, and
nothing happens until the next start.
-/
inductive Follows : Phase → Notice → Phase → Prop where
  | started : Follows .idle .started (.running 0)
  | called (calls : Nat) : Follows (.running calls) .called (.running (calls + 1))
  | ended (calls : Nat) : Follows (.running (calls + 1)) .ended .finished
  | requested (calls : Nat) : Follows (.running calls) .requested (.stopping calls 0)
  | requestedLate : Follows .finished .requested .joined
  | calledLate (calls : Nat) : Follows (.stopping calls 0) .called (.stopping (calls + 1) 1)
  | endedLate (calls since : Nat) : Follows (.stopping (calls + 1) since) .ended .joined
  | stopped : Follows .joined .stopped .idle

inductive Obeys : Phase → List Notice → Phase → Prop where
  | nil (phase : Phase) : Obeys phase [] phase
  | snoc {start phase next : Phase} {earlier : List Notice} {notice : Notice}
      (obeys : Obeys start earlier phase) (follows : Follows phase notice next)
      : Obeys start (earlier ++ [notice]) next

/-- Which phases the fields of the two threads allow. -/
inductive Matches (thread : PlatformThread) : Phase → Prop where
  | idle (owner : thread.owner = .outside) (running : thread.isRunning = false)
      (worker : thread.worker = .ended) (flag : thread.stopFlag = 0)
      : Matches thread .idle
  | running (calls : Nat) (owner : thread.owner = .outside) (running : thread.isRunning = true)
      (alive : thread.worker ≠ .ended) (flag : thread.stopFlag = 0)
      (first : thread.worker ≠ .calling → 0 < calls)
      (once : thread.hasRunFunction = true → thread.worker = .calling)
      : Matches thread (.running calls)
  | finished (owner : thread.owner = .outside) (running : thread.isRunning = true)
      (worker : thread.worker = .ended) (flag : thread.stopFlag = 0)
      : Matches thread .finished
  | stopping (calls since : Nat) (owner : thread.owner = .joining)
      (running : thread.isRunning = true) (alive : thread.worker ≠ .ended)
      (flag : thread.hasRunFunction = false → thread.stopFlag = 1)
      (unused : thread.hasRunFunction = true → thread.stopFlag = 0)
      (first : thread.worker ≠ .calling → 0 < calls)
      (late : thread.worker = .calling → since = 0)
      (once : thread.hasRunFunction = true → thread.worker = .calling)
      : Matches thread (.stopping calls since)
  | joined (owner : thread.owner ≠ .outside) (running : thread.isRunning = true)
      (worker : thread.worker = .ended)
      (unused : thread.hasRunFunction = true → thread.stopFlag = 0)
      (cleared : thread.owner = .clearingThread → thread.stopFlag = 0)
      : Matches thread .joined

/-- A step keeps the history within the protocol and leads to a phase that matches. -/
def Advances (phase : Phase) (reached : PlatformThread × List Notice) : Prop :=
  ∃ next, reached.1.Matches next
    ∧ ∀ earlier, Obeys .idle earlier phase → Obeys .idle (earlier ++ reached.2) next

variable {phase : Phase} {thread : PlatformThread} {number : Nat} {more : Bool}
  {reached : PlatformThread × List Notice}

/-- A step without a notice that stays in its phase. -/
theorem Advances.silent (matching : thread.Matches phase) : Advances phase (thread, []) :=
  ⟨phase, matching, fun earlier obeys => by simpa using obeys⟩

/-- A step with one notice. -/
theorem Advances.one {next : Phase} {notice : Notice} (matching : thread.Matches next)
    (follows : Follows phase notice next)
    : Advances phase (thread, [notice]) :=
  ⟨next, matching, fun _ obeys => obeys.snoc follows⟩

/-- A call after which the worker ends. -/
theorem Advances.last {middle next : Phase} (matching : thread.Matches next)
    (called : Follows phase .called middle) (ended : Follows middle .ended next)
    : Advances phase (thread, [.called, .ended]) := by
  refine ⟨next, matching, fun earlier obeys => ?_⟩
  have both := (obeys.snoc called).snoc ended
  simpa using both

/-- A `start` of a thread that is not running is one in `idle`, and begins a round. -/
theorem start_advances (matching : thread.Matches phase) (owned : thread.Owned)
    (idle : thread.isRunning = false) (outside : thread.owner = .outside)
    : Advances phase (thread.start .created) := by
  have begins := (owned.start idle).2
  cases matching with
  | idle owner _ worker flag =>
      have alive : (thread.start .created).1.worker ≠ .ended := by simp [begins]
      exact .one (.running 0 owner rfl alive flag (fun elsewhere => absurd begins elsewhere)
        (fun _ => begins)) .started
  | running _ _ running => simp [idle] at running
  | finished _ running => simp [idle] at running
  | stopping _ _ owner => simp [outside] at owner
  | joined owner => exact absurd outside owner

/-- `stop` of a running thread raises the flag, unless the worker has a function that runs once. -/
theorem stop_of_running (running : thread.isRunning = true)
    : thread.stop
      = ({ thread with
            stopFlag := if thread.hasRunFunction then thread.stopFlag else thread.stopFlag + 1
            owner := .joining },
          [.requested]) := by
  unfold stop
  cases thread.hasRunFunction <;> simp [running]

/-- `stop` does nothing in `idle` and is a request otherwise. -/
theorem stop_advances (matching : thread.Matches phase) (allowed : thread.owner = .outside)
    : Advances phase thread.stop := by
  cases matching with
  | idle owner running worker flag =>
      have nothing : thread.stop = (thread, []) := by simp [stop, running]
      rw [nothing]
      exact .silent (.idle owner running worker flag)
  | running calls owner running alive flag first once =>
      rw [stop_of_running running]
      refine .one (.stopping calls 0 rfl running alive ?_ ?_ first (fun _ => rfl) once)
        (.requested calls)
      · intro kind
        simp_all
      · intro kind
        simp_all
  | finished owner running worker flag =>
      rw [stop_of_running running]
      refine .one (.joined (by simp) running worker ?_ (by simp)) .requestedLate
      intro kind
      simp_all
  | stopping _ _ owner => simp [allowed] at owner
  | joined owner => exact absurd allowed owner

/-- The owner inside `stop`: it waits in `stopping`, and in `joined` it goes on to return. -/
theorem runOwner_advances (matching : thread.Matches phase) (enabled : reached ∈ thread.runOwner)
    : Advances phase reached := by
  unfold runOwner at enabled
  cases matching with
  | idle owner => simp [owner] at enabled
  | running _ owner => simp [owner] at enabled
  | finished owner => simp [owner] at enabled
  | stopping _ _ owner _ alive => simp [owner, alive] at enabled
  | joined owner running worker unused cleared =>
      cases place : thread.owner with
      | outside => exact absurd place owner
      | joining =>
          obtain rfl : ({ thread with owner := .clearingFlag }, []) = reached := by
            simpa [place, worker] using enabled
          exact .silent (.joined (by simp) running worker unused (by simp))
      | clearingFlag =>
          simp only [place] at enabled
          obtain rfl := Option.some.inj enabled
          refine .silent (.joined (by simp) running worker ?_ fun _ => ?_)
          · intro kind
            simp [unused kind]
          · cases kind : thread.hasRunFunction with
            | true => simp [unused kind]
            | false => simp
      | clearingThread =>
          simp only [place] at enabled
          obtain rfl := Option.some.inj enabled
          exact .one (.idle rfl rfl rfl (cleared place)) .stopped

/-- A call of the function: the worker goes on only if it is to call again, and after a request it
has had its one late call.
-/
theorem callFunction_advances (matching : thread.Matches phase) (owned : thread.Owned)
    (named : thread.handle = some number) (place : thread.worker = .calling)
    : Advances phase (thread.callFunction number more) := by
  have ended := (owned.setWorker named .ended).2
  have naps := (owned.setWorker named .napping).2
  have outcome
      : thread.callFunction number more = (thread.setWorker number .ended, [.called, .ended])
        ∨ thread.hasRunFunction = false
          ∧ thread.callFunction number more = (thread.setWorker number .napping, [.called]) := by
    unfold callFunction
    cases thread.hasRunFunction <;> cases more <;> simp
  cases matching with
  | idle _ _ worker => simp [place] at worker
  | running calls owner running alive flag first once =>
      rcases outcome with ends | ⟨kind, goesOn⟩
      · rw [ends]
        exact .last (.finished owner running ended flag) (.called calls) (.ended calls)
      · rw [goesOn]
        refine .one (.running (calls + 1) owner running ?_ flag (by simp) ?_) (.called calls)
        · simp [naps]
        · intro runsOnce
          exact absurd (kind.symm.trans runsOnce) (by simp)
  | finished _ _ worker => simp [place] at worker
  | stopping calls since owner running alive flag unused first late once =>
      obtain rfl := late place
      rcases outcome with ends | ⟨kind, goesOn⟩
      · rw [ends]
        refine .last (.joined ?_ running ended unused ?_) (.calledLate calls) (.endedLate calls 1)
        · simp [PlatformThread.setWorker, owner]
        · simp [PlatformThread.setWorker, owner]
      · rw [goesOn]
        refine .one (.stopping (calls + 1) 1 owner running ?_ flag unused (by simp) ?_ ?_)
          (.calledLate calls)
        · simp [naps]
        · simp [naps]
        · intro runsOnce
          exact absurd (kind.symm.trans runsOnce) (by simp)
  | joined _ _ worker => simp [place] at worker

/-- The worker that the handle names between two calls: it sleeps, then reads the flag. -/
theorem runWorker_advances (matching : thread.Matches phase) (owned : thread.Owned)
    (enabled : reached ∈ thread.runWorker number more)
    : Advances phase reached := by
  have named := owned.handle_of_run enabled
  have same := worker_of_handle named
  have calls := (owned.setWorker named .calling).2
  have tests := (owned.setWorker named .testing).2
  have ends := (owned.setWorker named .ended).2
  cases place : thread.worker with
  | ended => simp [runWorker, ← same, place] at enabled
  | calling =>
      obtain rfl : thread.callFunction number more = reached := by
        simpa [runWorker, ← same, place] using enabled
      exact callFunction_advances matching owned named place
  | napping =>
      obtain rfl : (thread.setWorker number .testing, []) = reached := by
        simpa [runWorker, ← same, place] using enabled
      cases matching with
      | idle _ _ worker => simp [place] at worker
      | running calls owner running alive flag first once =>
          exact .silent (.running calls owner running (by simp [tests]) flag
            (fun _ => first (by simp [place]))
            (fun kind => absurd (once kind) (by simp [place])))
      | finished _ _ worker => simp [place] at worker
      | stopping calls since owner running alive flag unused first late once =>
          exact .silent (.stopping calls since owner running (by simp [tests]) flag unused
            (fun _ => first (by simp [place])) (by simp [tests])
            (fun kind => absurd (once kind) (by simp [place])))
      | joined _ _ worker => simp [place] at worker
  | testing =>
      cases matching with
      | idle _ _ worker => simp [place] at worker
      | running count owner running alive flag first once =>
          obtain rfl : (thread.setWorker number .calling, []) = reached := by
            simpa [runWorker, ← same, place, flag] using enabled
          exact .silent (.running count owner running (by simp [calls]) flag
            (fun elsewhere => absurd calls elsewhere) (fun _ => calls))
      | finished _ _ worker => simp [place] at worker
      | stopping count since owner running alive flag unused first late once =>
          have kind : thread.hasRunFunction = false := by
            refine Bool.eq_false_iff.mpr fun kind => ?_
            simp [once kind] at place
          obtain rfl : (thread.setWorker number .ended, [Notice.ended]) = reached := by
            simpa [runWorker, ← same, place, flag kind] using enabled
          obtain ⟨earlier, rfl⟩ := Nat.exists_add_one_eq.mpr (first (by simp [place]))
          refine .one (.joined ?_ running ends unused ?_) (.endedLate earlier since)
          · simp [PlatformThread.setWorker, owner]
          · simp [PlatformThread.setWorker, owner]
      | joined _ _ worker => simp [place] at worker

/-- Every step of any thread advances, as long as only what is not running is started. -/
theorem step_advances (matching : thread.Matches phase) (owned : thread.Owned) {label : Label}
    (startsOnce : thread.StartsOnce label) (enabled : reached ∈ thread.step label)
    : Advances phase reached := by
  unfold step at enabled
  cases label with
  | start creation =>
      obtain ⟨idle, rfl⟩ := startsOnce
      obtain ⟨outside, rfl⟩ : thread.owner = .outside ∧ thread.start .created = reached := by
        simpa using enabled
      exact start_advances matching owned idle outside
  | stop =>
      obtain ⟨allowed, rfl⟩ : thread.owner = .outside ∧ thread.stop = reached := by
        simpa using enabled
      exact stop_advances matching allowed
  | owner => exact runOwner_advances matching enabled
  | worker number more => exact runWorker_advances matching owned enabled

/-- Every step of any thread leaves one worker at most, which the handle names. -/
theorem step_owned (matching : thread.Matches phase) (owned : thread.Owned) {label : Label}
    (startsOnce : thread.StartsOnce label) (enabled : reached ∈ thread.step label)
    : reached.1.Owned := by
  unfold step at enabled
  cases label with
  | start creation =>
      obtain ⟨idle, rfl⟩ := startsOnce
      obtain ⟨-, rfl⟩ : thread.owner = .outside ∧ thread.start .created = reached := by
        simpa using enabled
      exact (owned.start idle).1
  | stop =>
      obtain ⟨-, rfl⟩ : thread.owner = .outside ∧ thread.stop = reached := by simpa using enabled
      unfold stop
      split_ifs
      · exact owned
      · exact ⟨owned.named, owned.others⟩
      · exact ⟨owned.named, owned.others⟩
  | owner =>
      unfold runOwner at enabled
      dsimp only at enabled
      split at enabled
      · cases enabled
      · split_ifs at enabled
        · obtain rfl := Option.some.inj enabled
          exact ⟨owned.named, owned.others⟩
        · cases enabled
      · obtain rfl := Option.some.inj enabled
        exact ⟨owned.named, owned.others⟩
      · rename_i place
        obtain rfl := Option.some.inj enabled
        cases matching with
        | idle owner => simp [place] at owner
        | running _ owner => simp [place] at owner
        | finished owner => simp [place] at owner
        | stopping _ _ owner => simp [place] at owner
        | joined _ _ ended => exact owned.clear ended .outside
  | worker number more =>
      have named := owned.handle_of_run enabled
      have moves (place : Worker) : (thread.setWorker number place).Owned :=
        (owned.setWorker named place).1
      dsimp only at enabled
      unfold runWorker at enabled
      split at enabled
      · cases enabled
      · obtain rfl := Option.some.inj enabled
        unfold callFunction
        split_ifs
        · exact moves .ended
        · exact moves .ended
        · exact moves .napping
      · obtain rfl := Option.some.inj enabled
        exact moves .testing
      · split_ifs at enabled
        · obtain rfl := Option.some.inj enabled
          exact moves .ended
        · obtain rfl := Option.some.inj enabled
          exact moves .calling

/-- The first step of a worker is a call. -/
theorem first_step_calls (matching : thread.Matches phase)
    (fresh : phase = .running 0 ∨ phase = .stopping 0 0)
    : ∃ number,
        thread.handle = some number
        ∧ ∀ more, ∃ next ∈ thread.step (.worker number more), next.2.head? = some .called := by
  have calling : thread.isRunning = true ∧ thread.worker = .calling := by
    rcases fresh with rfl | rfl
    · cases matching with
      | running _ _ running _ _ first =>
          exact ⟨running, not_not.mp fun elsewhere => absurd (first elsewhere) (by simp)⟩
    · cases matching with
      | stopping _ _ _ running _ _ _ first =>
          exact ⟨running, not_not.mp fun elsewhere => absurd (first elsewhere) (by simp)⟩
  obtain ⟨number, named⟩ := Option.isSome_iff_exists.mp calling.1
  have place := (worker_of_handle named).symm.trans calling.2
  refine ⟨number, named, fun more => ⟨thread.callFunction number more, ?_, ?_⟩⟩
  · simp [step, runWorker, place]
  · unfold callFunction
    split_ifs <;> rfl

/-- A worker that nobody asked to end makes its next call within three steps of its own. -/
theorem worker_calls {calls : Nat} (matching : thread.Matches (.running calls))
    (owned : thread.Owned)
    : ∃ number,
        thread.handle = some number
        ∧ ∀ more, ∃ steps ≤ 3,
            ∃ last ∈ runSchedule step thread (List.replicate steps (.worker number more)),
              .called ∈ last.2 := by
  cases matching with
  | running _ owner running alive flag first once =>
      obtain ⟨number, named⟩ := Option.isSome_iff_exists.mp running
      have created := owned.named number named
      refine ⟨number, named, fun more => ?_⟩
      rw [worker_of_handle named] at alive
      cases place : thread.workerAt number with
      | ended => exact absurd place alive
      | calling =>
          refine ⟨1, by simp, ?_⟩
          cases kind : thread.hasRunFunction <;> cases more <;>
            simp [List.replicate, runSchedule, step, runWorker, place, callFunction, kind]
      | napping =>
          refine ⟨3, by simp, ?_⟩
          cases kind : thread.hasRunFunction <;> cases more <;>
            simp [List.replicate, runSchedule, step, runWorker, place, callFunction, kind, flag,
              workerAt_setWorker, created]
      | testing =>
          refine ⟨2, by simp, ?_⟩
          cases kind : thread.hasRunFunction <;> cases more <;>
            simp [List.replicate, runSchedule, step, runWorker, place, callFunction, kind, flag,
              workerAt_setWorker, created]

/-- While the owner waits in `stop`, the worker ends within three steps of its own, whatever its
function returns.
-/
theorem worker_ends (matching : thread.Matches phase) (owned : thread.Owned)
    (joining : thread.owner = .joining)
    : ∃ number,
        thread.handle = some number
        ∧ ∀ more, ∃ steps ≤ 3,
            ∃ last ∈ runSchedule step thread (List.replicate steps (.worker number more)),
              last.1.worker = .ended := by
  cases matching with
  | idle owner => simp [joining] at owner
  | running _ owner => simp [joining] at owner
  | finished owner => simp [joining] at owner
  | joined _ running worker =>
      obtain ⟨number, named⟩ := Option.isSome_iff_exists.mp running
      exact ⟨number, named, fun _ => ⟨0, by simp, (thread, []), by simp, worker⟩⟩
  | stopping calls since owner running alive flag unused first late once =>
      obtain ⟨number, named⟩ := Option.isSome_iff_exists.mp running
      have created := owned.named number named
      have same := worker_of_handle named
      refine ⟨number, named, fun more => ?_⟩
      cases place : thread.workerAt number with
      | ended => exact absurd (same.trans place) alive
      | calling =>
          cases kind : thread.hasRunFunction with
          | true =>
              refine ⟨1, by simp, ?_⟩
              simp [List.replicate, runSchedule, step, runWorker, place, callFunction, kind, worker,
                named, workerAt_setWorker, created]
          | false =>
              cases more with
              | true =>
                  refine ⟨3, by simp, ?_⟩
                  simp [List.replicate, runSchedule, step, runWorker, place, callFunction, kind,
                    flag kind, worker, named, workerAt_setWorker, created]
              | false =>
                  refine ⟨1, by simp, ?_⟩
                  simp [List.replicate, runSchedule, step, runWorker, place, callFunction, kind,
                    worker, named, workerAt_setWorker, created]
      | napping =>
          have kind : thread.hasRunFunction = false := by
            refine Bool.eq_false_iff.mpr fun kind => ?_
            simp [← same, once kind] at place
          refine ⟨2, by simp, ?_⟩
          simp [List.replicate, runSchedule, step, runWorker, place, flag kind, worker, named,
            workerAt_setWorker, created]
      | testing =>
          have kind : thread.hasRunFunction = false := by
            refine Bool.eq_false_iff.mpr fun kind => ?_
            simp [← same, once kind] at place
          refine ⟨1, by simp, ?_⟩
          simp [List.replicate, runSchedule, step, runWorker, place, flag kind, worker, named,
            workerAt_setWorker, created]

/-- For an owner that calls `start` only while the thread is not running, and whose threads can be
created, in every interleaving with the workers and whatever their function returns: each start is
followed by at least one call of the function before the worker ends, at most one call begins after
`stop` asked the worker to end, `stop` returns only when every worker has ended, no call happens
until the next start, which finds the stop flag cleared; a worker begins with a call, and as long as
nobody stops it, it calls within three steps of it; and a `stop` that waits gets its worker's end
within three steps of it.
-/
theorem platform_thread_obeys_protocol (hasRunFunction : Bool) {labels : List Label}
    (starts : AlongSchedule step StartsOnce (create hasRunFunction) labels)
    {reached : PlatformThread × List Notice}
    (runs : reached ∈ runSchedule step (create hasRunFunction) labels)
    : (∃ phase,
        Obeys .idle reached.2 phase
        ∧ (phase = .idle ↔ reached.1.isRunning = false)
        ∧ (phase = .idle
          → (∀ number, reached.1.workerAt number = .ended) ∧ reached.1.stopFlag = 0)
        ∧ (phase = .running 0 ∨ phase = .stopping 0 0
          → ∃ number,
              reached.1.handle = some number
              ∧ ∀ more, ∃ next ∈ reached.1.step (.worker number more),
                  next.2.head? = some .called)
        ∧ ∀ calls, phase = .running calls
            → ∃ number,
                reached.1.handle = some number
                ∧ ∀ more, ∃ steps ≤ 3,
                    ∃ last ∈ runSchedule step reached.1 (List.replicate steps (.worker number more)),
                      .called ∈ last.2)
      ∧ (reached.1.owner = .joining
        → ∃ number,
            reached.1.handle = some number
            ∧ ∀ more, ∃ steps ≤ 3,
                ∃ last ∈ runSchedule step reached.1 (List.replicate steps (.worker number more)),
                  last.1.worker = .ended) := by
  obtain ⟨phase, matching, owned, obeys⟩
      : ∃ phase, reached.1.Matches phase ∧ reached.1.Owned ∧ Obeys .idle reached.2 phase := by
    refine runSchedule_invariant_guarded
      (fun history thread => ∃ phase,
        thread.Matches phase ∧ thread.Owned ∧ Obeys .idle history phase)
      ?_ ⟨.idle, .idle rfl rfl rfl rfl, ⟨nofun, fun _ _ => rfl⟩, .nil .idle⟩ starts runs
    rintro history thread label next startsOnce enabled ⟨phase, matching, owned, obeys⟩
    obtain ⟨later, kept, continues⟩ := step_advances matching owned startsOnce enabled
    exact ⟨later, kept, step_owned matching owned startsOnce enabled, continues history obeys⟩
  refine ⟨⟨phase, obeys, ?_, ?_, first_step_calls matching, ?_⟩, worker_ends matching owned⟩
  · cases matching <;> simp_all
  · rintro rfl
    cases matching with
    | idle _ running _ flag =>
        have unnamed : reached.1.handle = none := by simpa [isRunning] using running
        exact ⟨fun number => owned.others number (by simp [unnamed]), flag⟩
  · rintro calls rfl
    exact worker_calls matching owned

/-- The function wants to go on for ever and is stopped during its second round; then the thread is
started again and calls.
-/
def startsAgain : List Label :=
  [.start .created, .worker 0 true, .worker 0 true, .worker 0 true, .stop, .worker 0 true,
    .worker 0 true, .worker 0 true, .owner, .owner, .owner, .start .created, .worker 1 true]

theorem platform_thread_obeys_protocol_startsAgain
    : ∃ reached ∈ runSchedule step (create false) startsAgain,
        reached.2
          = [.started, .called, .requested, .called, .ended, .stopped, .started, .called]
        ∧ ∃ phase, Obeys .idle reached.2 phase ∧ (phase = .idle ↔ reached.1.isRunning = false) := by
  have observed
      : (runSchedule step (create false) startsAgain).map Prod.snd
        = some [.started, .called, .requested, .called, .ended, .stopped, .started, .called] := by
    decide
  obtain ⟨reached, runs, history⟩ := Option.map_eq_some_iff.mp observed
  have starts : AlongSchedule step StartsOnce (create false) startsAgain := by decide
  obtain ⟨⟨phase, obeys, idle, -⟩, -⟩ := platform_thread_obeys_protocol false starts runs
  exact ⟨reached, runs, history, phase, obeys, idle⟩

/-- Started twice and stopped once, a thread has a worker left that calls on. -/
example
    : (runSchedule step (create false)
        [.start .created, .start .created, .stop, .worker 1 false, .owner, .owner, .owner,
          .worker 0 true]).map Prod.snd
      = some [.started, .started, .requested, .called, .ended, .stopped, .called] := by
  decide

end Protocol

end PlatformThread

end RtcBase.Threads

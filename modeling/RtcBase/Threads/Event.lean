import RtcBase.Library.Interleaving
import Mathlib.Tactic.Common

/-! The event of `event.cpp`: `set`, `reset` and `wait` as the steps that threads take between two
operations on the mutex and the condition variable, in any interleaving.
-/

namespace RtcBase.Threads

open RtcBase.Library

/-- What `gettimeofday` returns. -/
structure Timeval where
  sec : Int
  usec : Int
  valid : 0 ≤ usec ∧ usec < 1000000

/-- The beginning of the clock. -/
def Timeval.epoch : Timeval := ⟨0, 0, by decide⟩

structure Timespec where
  sec : Int
  nsec : Int
deriving DecidableEq, Repr

/-- The condition on a deadline that `pthread_cond_timedwait` checks. -/
def Timespec.Valid (ts : Timespec) : Prop := 0 ≤ ts.nsec ∧ ts.nsec < 1000000000

instance decidableTimespecValid (ts : Timespec) : Decidable ts.Valid :=
  inferInstanceAs (Decidable (_ ∧ _))

namespace Event

def kForever : Int := -1

def ETIMEDOUT : Int := 110
def EINVAL : Int := 22

/-- The absolute time at which `wait(milliseconds)` gives up; C++ division rounds towards zero. -/
def deadline (now : Timeval) (milliseconds : Int) : Timespec :=
  let sec := now.sec + milliseconds.tdiv 1000
  let nsec := now.usec * 1000 + milliseconds.tmod 1000 * 1000000
  if nsec ≥ 1000000000 then ⟨sec + 1, nsec - 1000000000⟩ else ⟨sec, nsec⟩

inductive Operation where
  | set
  | reset
  | wait (milliseconds : Int)
deriving DecidableEq, Repr

/-- The local variables of `wait`; `ts` is read only when the wait has a time limit. -/
structure WaitFrame where
  milliseconds : Int
  ts : Timespec
  error : Int
deriving DecidableEq, Repr

/-- The next thing that a thread does inside one of the three functions. -/
inductive Pc where
  | outside
  | setLock
  | setStatus
  | setBroadcast
  | setUnlock
  | resetLock
  | resetStatus
  | resetUnlock
  | waitLock (frame : WaitFrame)
  | waitLoop (frame : WaitFrame)
  -- asleep in `pthread_cond_wait` or `pthread_cond_timedwait`, the mutex given up
  | waitAsleep (frame : WaitFrame)
  -- awake inside the same call, which returns once it has the mutex again
  | waitWoken (frame : WaitFrame)
  | waitConsume (frame : WaitFrame)
  | waitUnlock (frame : WaitFrame)
deriving DecidableEq, Repr

/-- An effect of a call on the status; `waited` carries the error that `wait` ends with. -/
inductive Effect where
  | set
  | reset
  | waited (error : Int)
deriving DecidableEq, Repr

end Event

open Event

variable {θ : Type*} [DecidableEq θ]

/-- An event and the threads that use it. -/
structure Event (θ : Type*) where
  isManualReset : Bool
  eventStatus : Bool
  eventMutex : Option θ
  pc : θ → Pc

namespace Event

/-- What the threads observe of an event; `set` and `reset` return nothing. -/
abbrev Notice (θ : Type*) := Observation θ Operation Effect (Option Bool)

/-- A new event, with every thread outside its functions. -/
def create (manualReset initiallySignaled : Bool) : Event θ where
  isManualReset := manualReset
  eventStatus := initiallySignaled
  eventMutex := none
  pc := fun _ => .outside

def goto (event : Event θ) (thread : θ) (next : Pc) : Event θ :=
  { event with pc := Function.update event.pc thread next }

/-- `pthread_mutex_lock`: blocked while the mutex is taken. -/
def lock (event : Event θ) (thread : θ) (next : Pc) : Option (Event θ × List (Notice θ)) :=
  if event.eventMutex = none then
    some ({ event with eventMutex := some thread }.goto thread next, [])
  else
    none

/-- `pthread_mutex_unlock` as the last thing that a call does before it returns. -/
def unlock (event : Event θ) (thread : θ) (result : Option Bool)
    : Option (Event θ × List (Notice θ)) :=
  if event.eventMutex = some thread then
    some ({ event with eventMutex := none }.goto thread .outside, [.returned thread result])
  else
    none

/-- A sleeper that was signaled returns 0 from its condition wait. -/
def Pc.wake : Pc → Pc
  | .waitAsleep frame => .waitWoken { frame with error := 0 }
  | other => other

/-- `pthread_cond_broadcast`. -/
def broadcast (event : Event θ) : Event θ :=
  { event with pc := fun thread => (event.pc thread).wake }

/-- The loop of `wait`: leave it once the event is signaled or the condition wait failed, otherwise
wait on the condition variable, which refuses a deadline that is no time.
-/
def loop (event : Event θ) (thread : θ) (frame : WaitFrame)
    : Option (Event θ × List (Notice θ)) :=
  if !event.eventStatus && frame.error == 0 then
    if frame.milliseconds = kForever ∨ frame.ts.Valid then
      some ({ event with eventMutex := none }.goto thread (.waitAsleep frame), [])
    else
      some (event.goto thread (.waitLoop { frame with error := EINVAL }), [])
  else
    some (event.goto thread (.waitConsume frame), [])

/-- The tail of `wait`: a successful wait on an auto-reset event takes the signal. -/
def consume (event : Event θ) (thread : θ) (frame : WaitFrame) : Event θ × List (Notice θ) :=
  ((if frame.error == 0 && !event.isManualReset then { event with eventStatus := false }
    else event).goto thread (.waitUnlock frame),
    [.took thread (.waited frame.error)])

/-- One step of a thread that is inside a call; `none` while it is blocked or asleep. -/
def run (event : Event θ) (thread : θ) : Option (Event θ × List (Notice θ)) :=
  match event.pc thread with
  | .outside => none
  | .setLock => event.lock thread .setStatus
  | .setStatus =>
      some ({ event with eventStatus := true }.goto thread .setBroadcast, [.took thread .set])
  | .setBroadcast => some (event.broadcast.goto thread .setUnlock, [])
  | .setUnlock => event.unlock thread none
  | .resetLock => event.lock thread .resetStatus
  | .resetStatus =>
      some ({ event with eventStatus := false }.goto thread .resetUnlock, [.took thread .reset])
  | .resetUnlock => event.unlock thread none
  | .waitLock frame => event.lock thread (.waitLoop frame)
  | .waitLoop frame => event.loop thread frame
  | .waitAsleep _ => none
  | .waitWoken frame => event.lock thread (.waitLoop frame)
  | .waitConsume frame => some (event.consume thread frame)
  | .waitUnlock frame => event.unlock thread (some (frame.error == 0))

/-- Where a call starts; `wait` reads the clock before it takes the mutex. -/
def entry (operation : Operation) (now : Timeval) : Pc :=
  match operation with
  | .set => .setLock
  | .reset => .resetLock
  | .wait milliseconds =>
      .waitLock {
        milliseconds
        ts := if milliseconds ≠ kForever then deadline now milliseconds else ⟨0, 0⟩
        error := 0 }

/-- What happens next: a thread calls a function, a thread takes a step, or a sleeper wakes
without a signal or because its deadline has passed.
-/
inductive Label (θ : Type*) where
  | call (thread : θ) (operation : Operation) (now : Timeval)
  | run (thread : θ)
  | spurious (thread : θ)
  | timeout (thread : θ)

def step (event : Event θ) : Label θ → Option (Event θ × List (Notice θ))
  | .call thread operation now =>
      if event.pc thread = .outside then
        some (event.goto thread (entry operation now), [.called thread operation])
      else
        none
  | .run thread => event.run thread
  | .spurious thread =>
      match event.pc thread with
      | .waitAsleep frame =>
          some (event.goto thread (.waitWoken { frame with error := 0 }), [])
      | _ => none
  | .timeout thread =>
      match event.pc thread with
      | .waitAsleep frame =>
          if frame.milliseconds ≠ kForever then
            some (event.goto thread (.waitWoken { frame with error := ETIMEDOUT }), [])
          else
            none
      | _ => none

end Event

end RtcBase.Threads

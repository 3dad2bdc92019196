import RtcBase.Threads.Event

/-! What holds between any two steps of the threads that use an event: the mutex has one holder, a
signaled event leaves no waiter asleep, and some thread can always go on.
-/

namespace RtcBase.Threads.Event

open RtcBase.Library

variable {θ : Type*}

section Deadlines

/-- A deadline is the time of the call plus the given number of milliseconds, to the nanosecond. -/
theorem deadline_nanoseconds (now : Timeval) (milliseconds : Int)
    : (deadline now milliseconds).sec * 1000000000 + (deadline now milliseconds).nsec
      = now.sec * 1000000000 + now.usec * 1000 + milliseconds * 1000000 := by
  have split := Int.tmod_add_tdiv_mul milliseconds 1000
  unfold deadline
  dsimp only
  split_ifs <;> dsimp only <;> omega

/-- The deadline of a wait with a limit of at least zero is a time. -/
theorem deadline_valid (now : Timeval) {milliseconds : Int} (nonneg : 0 ≤ milliseconds)
    : (deadline now milliseconds).Valid := by
  have lower := Int.tmod_nonneg (b := 1000) nonneg
  have upper := Int.tmod_lt_of_pos milliseconds (b := 1000) (by decide)
  obtain ⟨usecLower, usecUpper⟩ := now.valid
  unfold deadline Timespec.Valid
  dsimp only
  split_ifs <;> constructor <;> dsimp only <;> omega

end Deadlines

section Invariant

/-- The thread is between taking the mutex and giving it up. -/
def Pc.critical : Pc → Bool
  | .setStatus | .setBroadcast | .setUnlock => true
  | .resetStatus | .resetUnlock => true
  | .waitLoop _ | .waitConsume _ | .waitUnlock _ => true
  | _ => false

/-- The local variables of a thread that is inside `wait`. -/
def Pc.frame? : Pc → Option WaitFrame
  | .waitLock frame | .waitLoop frame | .waitAsleep frame | .waitWoken frame => some frame
  | .waitConsume frame | .waitUnlock frame => some frame
  | _ => none

/-- The errors that a condition wait can have left in `error`. -/
def errorFits (milliseconds error : Int) : Prop :=
  error = 0
  ∨ error = ETIMEDOUT ∧ milliseconds ≠ kForever
  ∨ error = EINVAL ∧ milliseconds < 0 ∧ milliseconds ≠ kForever

structure WaitFrame.Ok (frame : WaitFrame) : Prop where
  ts : 0 ≤ frame.milliseconds → frame.ts.Valid
  error : errorFits frame.milliseconds frame.error

/-- What holds between any two steps of the threads. -/
structure Consistent (event : Event θ) : Prop where
  -- the mutex is held by exactly the thread that is inside its section
  holder : ∀ thread, (event.pc thread).critical = true ↔ event.eventMutex = some thread
  -- a wait that is about to succeed still sees the signal
  signaled
    : ∀ thread frame,
        event.pc thread = .waitConsume frame → frame.error = 0 → event.eventStatus = true
  -- a sleeper of a signaled event is about to be woken by the thread that set it
  broadcast
    : event.eventStatus = true
      → ∀ thread frame,
          event.pc thread = .waitAsleep frame → ∃ setter, event.pc setter = .setBroadcast
  frames : ∀ thread frame, (event.pc thread).frame? = some frame → frame.Ok

/-- A new event is consistent. -/
theorem create_consistent (manualReset initiallySignaled : Bool)
    : Consistent (create manualReset initiallySignaled : Event θ) where
  holder thread := by simp [create, Pc.critical]
  signaled thread frame inside := by simp [create] at inside
  broadcast _ thread frame asleep := by simp [create] at asleep
  frames thread frame inside := by simp [create, Pc.frame?] at inside

variable [DecidableEq θ]

@[simp] theorem goto_pc_self (event : Event θ) (thread : θ) (next : Pc)
    : (event.goto thread next).pc thread = next := by simp [goto]

theorem goto_pc_other (event : Event θ) {thread other : θ} (next : Pc) (different : other ≠ thread)
    : (event.goto thread next).pc other = event.pc other := by simp [goto, different]

@[simp] theorem goto_eventStatus (event : Event θ) (thread : θ) (next : Pc)
    : (event.goto thread next).eventStatus = event.eventStatus := rfl

@[simp] theorem goto_eventMutex (event : Event θ) (thread : θ) (next : Pc)
    : (event.goto thread next).eventMutex = event.eventMutex := rfl

@[simp] theorem Pc.wake_critical (pc : Pc) : pc.wake.critical = pc.critical := by
  cases pc <;> rfl

/-- One thread moves and the fields of the event change: what there is to check for the invariant.
The other threads keep their place, so each condition is about the moving thread and about what the
change of the fields means to the others.
-/
theorem Consistent.move {event later : Event θ} (consistent : Consistent event) (thread : θ)
    (next : Pc) (place : later.pc = Function.update event.pc thread next)
    (holder
      : (next.critical = true ↔ later.eventMutex = some thread)
        ∧ ∀ other, other ≠ thread
            → (event.eventMutex = some other ↔ later.eventMutex = some other))
    (signaled
      : (∀ frame, next = .waitConsume frame → frame.error = 0 → later.eventStatus = true)
        ∧ (later.eventStatus = event.eventStatus ∨ event.eventMutex = some thread))
    (broadcast
      : later.eventStatus = true
        → next = .setBroadcast
          ∨ event.eventStatus = true
            ∧ event.pc thread ≠ .setBroadcast
            ∧ ∀ frame, next ≠ .waitAsleep frame)
    (frames : ∀ frame, next.frame? = some frame → frame.Ok)
    : Consistent later where
  holder other := by
    by_cases same : other = thread
    · subst same
      simpa [place] using holder.1
    · simpa [place, same] using (consistent.holder other).trans (holder.2 other same)
  signaled other frame inside success := by
    by_cases same : other = thread
    · subst same
      exact signaled.1 frame (by simpa [place] using inside) success
    · have there : event.pc other = .waitConsume frame := by simpa [place, same] using inside
      have status := consistent.signaled other frame there success
      rcases signaled.2 with kept | held
      · rw [kept, status]
      · have holds := (consistent.holder other).mp (by rw [there]; rfl)
        rw [held, Option.some.injEq] at holds
        exact absurd holds.symm same
  broadcast status other frame asleep := by
    rcases broadcast status with setting | ⟨earlier, noSetter, notAsleep⟩
    · exact ⟨thread, by simp [place, setting]⟩
    · have different : other ≠ thread := by
        rintro rfl
        exact notAsleep frame (by simpa [place] using asleep)
      obtain ⟨setter, setting⟩ := consistent.broadcast earlier other frame
        (by simpa [place, different] using asleep)
      have elsewhere : setter ≠ thread := by
        rintro rfl
        exact noSetter setting
      exact ⟨setter, by simpa [place, elsewhere] using setting⟩
  frames other frame inside := by
    by_cases same : other = thread
    · subst same
      exact frames frame (by simpa [place] using inside)
    · exact consistent.frames other frame (by simpa [place, same] using inside)

/-- Taking the free mutex keeps the invariant. -/
theorem Consistent.lock {event : Event θ} (consistent : Consistent event) {thread : θ} {next : Pc}
    (inside : next.critical = true) (place : event.pc thread ≠ .setBroadcast)
    (notAsleep : ∀ frame, next ≠ .waitAsleep frame)
    (notConsuming : ∀ frame, next ≠ .waitConsume frame)
    (frames : ∀ frame, next.frame? = some frame → frame.Ok)
    {reached : Event θ × List (Notice θ)} (locked : reached ∈ event.lock thread next)
    : Consistent reached.1 := by
  unfold Event.lock at locked
  split_ifs at locked with free
  · obtain rfl := Option.some.inj locked
    refine consistent.move thread next rfl ⟨by simp [goto, inside], ?_⟩
      ⟨fun frame consuming => absurd consuming (notConsuming frame), .inl rfl⟩
      (fun status => .inr ⟨status, place, notAsleep⟩) frames
    intro other different
    simp [goto, free, Ne.symm different]
  · cases locked

/-- Giving up the mutex at the end of a call keeps the invariant. -/
theorem Consistent.unlock {event : Event θ} (consistent : Consistent event) {thread : θ}
    {result : Option Bool} (place : event.pc thread ≠ .setBroadcast)
    {reached : Event θ × List (Notice θ)} (unlocked : reached ∈ event.unlock thread result)
    : Consistent reached.1 := by
  unfold Event.unlock at unlocked
  split_ifs at unlocked with held
  · obtain rfl := Option.some.inj unlocked
    refine consistent.move thread .outside rfl
      ⟨by simp [goto, Pc.critical], ?_⟩
      ⟨by simp, .inl rfl⟩ (fun status => .inr ⟨status, place, by simp⟩) (by simp [Pc.frame?])
    intro other different
    simp [goto, held, Ne.symm different]
  · cases unlocked

/-- A move that keeps the mutex and the status keeps the invariant. -/
theorem Consistent.goto {event : Event θ} (consistent : Consistent event) {thread : θ} {next : Pc}
    (same : next.critical = (event.pc thread).critical)
    (place : event.pc thread ≠ .setBroadcast)
    (signaled : ∀ frame, next = .waitConsume frame → frame.error = 0 → event.eventStatus = true)
    (notAsleep : ∀ frame, next ≠ .waitAsleep frame)
    (frames : ∀ frame, next.frame? = some frame → frame.Ok)
    : Consistent (event.goto thread next) := by
  refine consistent.move thread next rfl ⟨?_, fun _ _ => Iff.rfl⟩
    ⟨signaled, .inl rfl⟩ (fun status => .inr ⟨status, place, notAsleep⟩) frames
  rw [same]
  exact consistent.holder thread

/-- Writing the status inside the section keeps the invariant: no other thread is inside, and a
signal is set by the thread that will wake the sleepers.
-/
theorem Consistent.store {event : Event θ} (consistent : Consistent event) {thread : θ}
    {status : Bool} {next : Pc} (inside : (event.pc thread).critical = true)
    (after : next.critical = true) (notConsuming : ∀ frame, next ≠ .waitConsume frame)
    (wakes : status = true → next = .setBroadcast)
    (frames : ∀ frame, next.frame? = some frame → frame.Ok)
    : Consistent ({ event with eventStatus := status }.goto thread next) := by
  have held := (consistent.holder thread).mp inside
  refine consistent.move thread next rfl ⟨?_, fun _ _ => Iff.rfl⟩
    ⟨fun frame consuming => absurd consuming (notConsuming frame), .inr held⟩
    (fun signaled => .inl (wakes signaled)) frames
  simpa [after] using held

/-- After a broadcast nobody sleeps. -/
theorem Pc.wake_ne_waitAsleep (pc : Pc) (frame : WaitFrame) : pc.wake ≠ .waitAsleep frame := by
  cases pc <;> simp [Pc.wake]

/-- Waking every sleeper keeps the invariant. -/
theorem Consistent.broadcasts {event : Event θ} (consistent : Consistent event) {thread : θ}
    (place : event.pc thread = .setBroadcast)
    : Consistent (event.broadcast.goto thread .setUnlock) := by
  have awake (other : θ) (frame : WaitFrame)
      : (event.broadcast.goto thread .setUnlock).pc other ≠ .waitAsleep frame := by
    by_cases same : other = thread
    · subst same
      simp
    · rw [goto_pc_other _ _ same]
      exact Pc.wake_ne_waitAsleep _ frame
  refine ⟨?_, ?_, fun _ other frame asleep => absurd asleep (awake other frame), ?_⟩
  · intro other
    rw [goto_eventMutex]
    change _ ↔ event.eventMutex = some other
    rw [← consistent.holder other]
    by_cases same : other = thread
    · subst same
      simp [place, Pc.critical]
    · rw [goto_pc_other _ _ same]
      simp [Event.broadcast]
  · intro other frame inside
    have different : other ≠ thread := by
      rintro rfl
      simp at inside
    rw [goto_pc_other _ _ different] at inside
    refine consistent.signaled other frame ?_
    change (event.pc other).wake = _ at inside
    cases before : event.pc other <;> rw [before] at inside <;> simp_all [Pc.wake]
  · intro other frame inside
    by_cases same : other = thread
    · subst same
      simp [Pc.frame?] at inside
    · rw [goto_pc_other _ _ same] at inside
      change (event.pc other).wake.frame? = _ at inside
      cases before : event.pc other <;> rw [before] at inside
      case waitAsleep earlier =>
        have ok := consistent.frames other earlier (by rw [before]; rfl)
        obtain rfl : { earlier with error := 0 } = frame := by
          simpa [Pc.wake, Pc.frame?] using inside
        exact ⟨ok.ts, .inl rfl⟩
      all_goals exact consistent.frames other frame (by rw [before]; exact inside)

/-- A round of the loop of `wait` keeps the invariant. -/
theorem Consistent.loop {event : Event θ} (consistent : Consistent event) {thread : θ}
    {frame : WaitFrame} (place : event.pc thread = .waitLoop frame)
    {reached : Event θ × List (Notice θ)} (looped : reached ∈ event.loop thread frame)
    : Consistent reached.1 := by
  have ok := consistent.frames thread frame (by rw [place]; rfl)
  have held := (consistent.holder thread).mp (by rw [place]; rfl)
  unfold Event.loop at looped
  split_ifs at looped with unsignaled sleeps <;> obtain rfl := Option.some.inj looped
  · refine consistent.move thread (.waitAsleep frame) rfl
      ⟨by simp [Event.goto, Pc.critical], ?_⟩ ⟨by simp, .inl rfl⟩ ?_ ?_
    · intro other different
      simp [Event.goto, held, Ne.symm different]
    · intro status
      change event.eventStatus = true at status
      simp [status] at unsignaled
    · intro same equal
      obtain rfl : frame = same := by simpa [Pc.frame?] using equal
      exact ok
  · refine consistent.goto (by rw [place]; rfl) (by simp [place]) (by simp) (by simp) ?_
    intro same equal
    obtain rfl : { frame with error := EINVAL } = same := by simpa [Pc.frame?] using equal
    obtain ⟨limited, invalid⟩ := not_or.mp sleeps
    exact ⟨ok.ts, .inr (.inr ⟨rfl, Int.not_le.mp (fun nonneg => invalid (ok.ts nonneg)), limited⟩)⟩
  · refine consistent.goto (by rw [place]; rfl) (by simp [place]) ?_ (by simp) ?_
    · intro same equal success
      obtain rfl : frame = same := by simpa using equal
      simpa [success] using unsignaled
    · intro same equal
      obtain rfl : frame = same := by simpa [Pc.frame?] using equal
      exact ok

/-- The frame that a call of `wait` starts with is in order. -/
theorem entry_frames (operation : Operation) (now : Timeval) (frame : WaitFrame)
    (inside : (entry operation now).frame? = some frame)
    : frame.Ok := by
  cases operation with
  | set => simp [entry, Pc.frame?] at inside
  | reset => simp [entry, Pc.frame?] at inside
  | wait milliseconds =>
      obtain rfl := Option.some.inj inside
      refine ⟨?_, .inl rfl⟩
      intro nonneg
      change 0 ≤ milliseconds at nonneg
      have limited : milliseconds ≠ kForever := by
        unfold kForever
        omega
      simpa [limited] using deadline_valid now nonneg

/-- One step of a thread inside a call keeps the invariant, by cases on where the thread is. -/
theorem run_consistent {event : Event θ} (consistent : Consistent event) {thread : θ}
    {reached : Event θ × List (Notice θ)} (enabled : reached ∈ event.run thread)
    : Consistent reached.1 := by
  have frames {next : Pc} (same : next.frame? = (event.pc thread).frame?) (frame : WaitFrame)
      (inside : next.frame? = some frame)
      : frame.Ok :=
    consistent.frames thread frame (same ▸ inside)
  unfold run at enabled
  split at enabled
  next => cases enabled
  next place =>
    exact consistent.lock rfl (by simp [place]) (by simp) (by simp) (by simp [Pc.frame?]) enabled
  next place =>
    obtain rfl := Option.some.inj enabled
    exact consistent.store (by rw [place]; rfl) rfl (by simp) (by simp) (by simp [Pc.frame?])
  next place =>
    obtain rfl := Option.some.inj enabled
    exact consistent.broadcasts place
  next place => exact consistent.unlock (by simp [place]) enabled
  next place =>
    exact consistent.lock rfl (by simp [place]) (by simp) (by simp) (by simp [Pc.frame?]) enabled
  next place =>
    obtain rfl := Option.some.inj enabled
    exact consistent.store (by rw [place]; rfl) rfl (by simp) (by simp) (by simp [Pc.frame?])
  next place => exact consistent.unlock (by simp [place]) enabled
  next frame place =>
    exact consistent.lock rfl (by simp [place]) (by simp) (by simp)
      (frames (by rw [place]; rfl)) enabled
  next frame place => exact consistent.loop place enabled
  next => cases enabled
  next frame place =>
    exact consistent.lock rfl (by simp [place]) (by simp) (by simp)
      (frames (by rw [place]; rfl)) enabled
  next frame place =>
    obtain rfl := Option.some.inj enabled
    unfold consume
    dsimp only
    split_ifs
    · exact consistent.store (by rw [place]; rfl) rfl (by simp) (by simp)
        (frames (by rw [place]; rfl))
    · exact consistent.goto (by rw [place]; rfl) (by simp [place]) (by simp) (by simp)
        (frames (by rw [place]; rfl))
  next frame place => exact consistent.unlock (by simp [place]) enabled

/-- A sleeper that wakes with an error its wait allows keeps the invariant. -/
theorem Consistent.wakes {event : Event θ} (consistent : Consistent event) {thread : θ}
    {frame : WaitFrame} {error : Int} (place : event.pc thread = .waitAsleep frame)
    (fits : errorFits frame.milliseconds error)
    : Consistent (event.goto thread (.waitWoken { frame with error })) := by
  have ok := consistent.frames thread frame (by rw [place]; rfl)
  refine consistent.goto (by rw [place]; rfl) (by simp [place]) (by simp) (by simp) ?_
  intro woken equal
  obtain rfl : { frame with error } = woken := by simpa [Pc.frame?] using equal
  exact ⟨ok.ts, fits⟩

/-- Every step of the system keeps the invariant. -/
theorem step_consistent {event : Event θ} {label : Label θ} {reached : Event θ × List (Notice θ)}
    (enabled : reached ∈ event.step label) (consistent : Consistent event)
    : Consistent reached.1 := by
  cases label with
  | call thread operation now =>
      unfold step at enabled
      dsimp only at enabled
      split_ifs at enabled with place
      · obtain rfl := Option.some.inj enabled
        exact consistent.goto (by rw [place]; cases operation <;> rfl) (by simp [place])
          (by cases operation <;> simp [entry]) (by cases operation <;> simp [entry])
          (entry_frames operation now)
      · cases enabled
  | run thread => exact run_consistent consistent enabled
  | spurious thread =>
      unfold step at enabled
      dsimp only at enabled
      split at enabled
      next frame place =>
        obtain rfl := Option.some.inj enabled
        exact consistent.wakes place (.inl rfl)
      next => cases enabled
  | timeout thread =>
      unfold step at enabled
      dsimp only at enabled
      split at enabled
      next frame place =>
        split_ifs at enabled with limited
        · obtain rfl := Option.some.inj enabled
          exact consistent.wakes place (.inr (.inl ⟨rfl, limited⟩))
        · cases enabled
      next => cases enabled

end Invariant

section Wakeups

variable [DecidableEq θ]

/-- The thread that holds the mutex can take its next step, by cases on where it is. -/
theorem run_isSome_of_critical {event : Event θ} (consistent : Consistent event) {thread : θ}
    (inside : (event.pc thread).critical = true)
    : (event.run thread).isSome = true := by
  have held := (consistent.holder thread).mp inside
  cases place : event.pc thread <;> rw [place] at inside
  case waitLoop frame =>
    simp only [run, place, loop]
    split_ifs <;> rfl
  all_goals first | (simp [run, place, unlock, held]; done) | simp [Pc.critical] at inside

/-- A thread that waits for the mutex can take it while it is free. -/
theorem run_isSome_of_free {event : Event θ} {thread : θ} (free : event.eventMutex = none)
    (notCritical : (event.pc thread).critical = false) (inside : event.pc thread ≠ .outside)
    (awake : ∀ frame, event.pc thread ≠ .waitAsleep frame)
    : (event.run thread).isSome = true := by
  cases place : event.pc thread <;> rw [place] at notCritical
  case outside => exact absurd place inside
  case waitAsleep frame => exact absurd place (awake frame)
  all_goals first | (simp [run, place, lock, free]; done) | simp [Pc.critical] at notCritical

/-- In every interleaving no signal is missed and nothing deadlocks: a thread asleep on a signaled
event is about to be woken by the thread that set it, and as long as some thread is inside a call,
some thread can take a step, unless all of them sleep in waits on an event that is not signaled.
-/
theorem event_wakes_waiters (manualReset initiallySignaled : Bool) {labels : List (Label θ)}
    {reached : Event θ × List (Notice θ)}
    (runs : reached ∈ runSchedule step (create manualReset initiallySignaled) labels)
    : (reached.1.eventStatus = true
        → ∀ thread frame,
            reached.1.pc thread = .waitAsleep frame
            → ∃ setter, reached.1.pc setter = .setBroadcast)
      ∧ ((∃ thread, (reached.1.run thread).isSome = true)
        ∨ ∀ thread,
            reached.1.pc thread = .outside
            ∨ reached.1.eventStatus = false
              ∧ ∃ frame, reached.1.pc thread = .waitAsleep frame) := by
  have consistent : Consistent reached.1 :=
    runSchedule_state_invariant _ (fun _ _ _ enabled holds => step_consistent enabled holds)
      (create_consistent manualReset initiallySignaled) runs
  refine ⟨consistent.broadcast, ?_⟩
  by_cases someone : ∃ thread, (reached.1.pc thread).critical = true
  · obtain ⟨thread, inside⟩ := someone
    exact .inl ⟨thread, run_isSome_of_critical consistent inside⟩
  · have nobody (thread : θ) : (reached.1.pc thread).critical = false := by
      simpa using fun inside => someone ⟨thread, inside⟩
    have free : reached.1.eventMutex = none := by
      cases held : reached.1.eventMutex with
      | none => rfl
      | some thread => exact absurd ⟨thread, (consistent.holder thread).mpr held⟩ someone
    by_cases quiet
        : ∀ thread,
            reached.1.pc thread = .outside ∨ ∃ frame, reached.1.pc thread = .waitAsleep frame
    · refine .inr fun thread => (quiet thread).imp_right fun asleep => ⟨?_, asleep⟩
      obtain ⟨frame, asleep⟩ := asleep
      refine Bool.eq_false_iff.mpr fun signaled => ?_
      obtain ⟨setter, setting⟩ := consistent.broadcast signaled thread frame asleep
      exact someone ⟨setter, by rw [setting]; rfl⟩
    · obtain ⟨thread, active⟩ := not_forall.mp quiet
      obtain ⟨inside, awake⟩ := not_or.mp active
      exact .inl ⟨thread, run_isSome_of_free free (nobody thread) inside
        fun frame asleep => awake ⟨frame, asleep⟩⟩

/-- One thread falls asleep in a wait; the other has written the status of the signal and not yet
woken anybody.
-/
def setsWhileAsleep : List (Label Bool) :=
  [.call true (.wait kForever) .epoch, .run true, .run true,
    .call false .set .epoch, .run false, .run false]

theorem event_wakes_waiters_setsWhileAsleep
    : ∃ reached ∈ runSchedule step (create false false) setsWhileAsleep,
        reached.1.eventStatus = true
        ∧ reached.1.pc true = .waitAsleep ⟨kForever, ⟨0, 0⟩, 0⟩
        ∧ (∃ setter, reached.1.pc setter = .setBroadcast)
        ∧ ((∃ thread, (reached.1.run thread).isSome = true)
          ∨ ∀ thread,
              reached.1.pc thread = .outside
              ∨ reached.1.eventStatus = false
                ∧ ∃ frame, reached.1.pc thread = .waitAsleep frame) := by
  have observed
      : (runSchedule step (create false false) setsWhileAsleep).map
          (fun reached => (reached.1.eventStatus, reached.1.pc true))
        = some (true, .waitAsleep ⟨kForever, ⟨0, 0⟩, 0⟩) := by
    decide
  obtain ⟨reached, runs, places⟩ := Option.map_eq_some_iff.mp observed
  obtain ⟨signaled, asleep⟩ := Prod.mk.inj places
  obtain ⟨woken, goesOn⟩ := event_wakes_waiters false false runs
  exact ⟨reached, runs, signaled, asleep, woken signaled true _ asleep, goesOn⟩

end Wakeups

end RtcBase.Threads.Event

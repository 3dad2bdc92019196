import RtcBase.Threads.Wakeups

/-! Every interleaving of the calls of an event is linearizable: the calls behave as if each of them
happened at one moment between its beginning and its return.
-/

namespace RtcBase.Threads.Event

open RtcBase.Library

variable {θ : Type*}

/-- What an effect does to the status: a wait succeeds only on a signaled event, which stays
signaled afterwards exactly when it is reset by hand.
-/
def applyEffect (isManualReset status : Bool) : Effect → Option Bool
  | .set => some true
  | .reset => some false
  | .waited error =>
      if error = 0 then
        if status = true then some isManualReset else none
      else
        some status

/-- The effects that a call may have. -/
def effectFits : Operation → Effect → Prop
  | .set, .set => True
  | .reset, .reset => True
  | .wait milliseconds, .waited error => errorFits milliseconds error
  | _, _ => False

def answer : Effect → Option Bool
  | .set => none
  | .reset => none
  | .waited error => some (error == 0)

/-- The event that its calls are meant to behave like: one status that each call reads and writes
at a single moment.
-/
def sequential (θ : Type*) (isManualReset : Bool)
    : ObjectSpec Bool θ Operation Effect (Option Bool) where
  apply status effect := applyEffect isManualReset status effect.2
  fits := effectFits
  answer := answer

/-- How far a thread is with its call. -/
def Pc.phase : Pc → CallPhase Operation Effect
  | .outside => .idle
  | .setLock | .setStatus => .pending .set
  | .setBroadcast | .setUnlock => .done .set
  | .resetLock | .resetStatus => .pending .reset
  | .resetUnlock => .done .reset
  | .waitLock frame | .waitLoop frame | .waitAsleep frame => .pending (.wait frame.milliseconds)
  | .waitWoken frame | .waitConsume frame => .pending (.wait frame.milliseconds)
  | .waitUnlock frame => .done (.waited frame.error)

@[simp] theorem Pc.wake_phase (pc : Pc) : pc.wake.phase = pc.phase := by
  cases pc <;> rfl

/-- The phases of all threads. -/
def phases (event : Event θ) (thread : θ) : CallPhase Operation Effect := (event.pc thread).phase

variable [DecidableEq θ]

@[simp] theorem phases_goto_self (event : Event θ) (thread : θ) (next : Pc)
    : (event.goto thread next).phases thread = next.phase := by simp [phases]

theorem phases_goto_other (event : Event θ) {thread other : θ} (next : Pc)
    (different : other ≠ thread)
    : (event.goto thread next).phases other = event.phases other := by
  simp [phases, goto_pc_other _ _ different]

/-- A move inside a phase changes no phase. -/
theorem phases_goto (event : Event θ) {thread : θ} {next : Pc}
    (same : next.phase = (event.pc thread).phase) (other : θ)
    : (event.goto thread next).phases other = event.phases other := by
  by_cases equal : other = thread
  · subst equal
    rw [phases_goto_self, same]
    rfl
  · exact phases_goto_other event next equal

variable {isManualReset initial : Bool} {history : List (Notice θ)}

/-- The calls so far are linearized and the event is still of the kind it was created as. -/
structure Linearizes (isManualReset initial : Bool) (history : List (Notice θ)) (event : Event θ)
    : Prop where
  kind : event.isManualReset = isManualReset
  calls : (sequential θ isManualReset).Linearized initial history event.phases event.eventStatus

/-- Taking the mutex is no observation. -/
theorem Linearizes.lock {event : Event θ}
    (linearizes : Linearizes isManualReset initial history event) {thread : θ} {next : Pc}
    (same : next.phase = (event.pc thread).phase) {reached : Event θ × List (Notice θ)}
    (locked : reached ∈ event.lock thread next)
    : Linearizes isManualReset initial (history ++ reached.2) reached.1 := by
  unfold Event.lock at locked
  split_ifs at locked with free
  · obtain rfl := Option.some.inj locked
    exact ⟨linearizes.kind, linearizes.calls.silent (phases_goto _ same)⟩
  · cases locked

/-- Giving up the mutex returns the answer of the effect that the call had. -/
theorem Linearizes.unlock {event : Event θ}
    (linearizes : Linearizes isManualReset initial history event)
    {thread : θ} (effect : Effect) (done : event.phases thread = .done effect)
    {reached : Event θ × List (Notice θ)} (unlocked : reached ∈ event.unlock thread (answer effect))
    : Linearizes isManualReset initial (history ++ reached.2) reached.1 := by
  unfold Event.unlock at unlocked
  split_ifs at unlocked with held
  · obtain rfl := Option.some.inj unlocked
    refine ⟨linearizes.kind, linearizes.calls.observe rfl ?_ ?_⟩
    · change (sequential θ isManualReset).Follows (event.phases thread) _
        (phases (goto _ thread _) thread)
      rw [done, phases_goto_self]
      exact .returned thread effect
    · intro other different
      exact phases_goto_other _ _ different
  · cases unlocked

/-- A step that takes effect on the status. -/
theorem Linearizes.take {event later : Event θ}
    (linearizes : Linearizes isManualReset initial history event) {thread : θ} {effect : Effect}
    (operation : Operation) {next : Pc}
    (kind : later.isManualReset = event.isManualReset) (place : later.pc = event.pc)
    (applies : applyEffect isManualReset event.eventStatus effect = some later.eventStatus)
    (pending : event.phases thread = .pending operation) (fits : effectFits operation effect)
    (done : next.phase = .done effect)
    : Linearizes isManualReset initial (history ++ [.took thread effect])
        (later.goto thread next) := by
  refine ⟨kind.trans linearizes.kind, linearizes.calls.take operation applies pending fits ?_ ?_⟩
  · rw [phases_goto_self, done]
  · intro other different
    rw [phases_goto_other _ _ different]
    simp [phases, place]

/-- A round of the loop of `wait` is no observation. -/
theorem Linearizes.loop {event : Event θ}
    (linearizes : Linearizes isManualReset initial history event) {thread : θ} {frame : WaitFrame}
    (place : event.pc thread = .waitLoop frame)
    {reached : Event θ × List (Notice θ)} (looped : reached ∈ event.loop thread frame)
    : Linearizes isManualReset initial (history ++ reached.2) reached.1 := by
  unfold Event.loop at looped
  split_ifs at looped with unsignaled sleeps <;> obtain rfl := Option.some.inj looped
  · exact ⟨linearizes.kind, linearizes.calls.silent (phases_goto _ (by rw [place]; rfl))⟩
  · exact ⟨linearizes.kind, linearizes.calls.silent (phases_goto _ (by rw [place]; rfl))⟩
  · exact ⟨linearizes.kind, linearizes.calls.silent (phases_goto _ (by rw [place]; rfl))⟩

/-- The tail of `wait` takes effect: on success the signal is there, and an auto-reset event loses
it.
-/
theorem Linearizes.consume {event : Event θ}
    (linearizes : Linearizes isManualReset initial history event) (consistent : Consistent event)
    {thread : θ} {frame : WaitFrame} (place : event.pc thread = .waitConsume frame)
    : Linearizes isManualReset initial (history ++ (event.consume thread frame).2)
        (event.consume thread frame).1 := by
  have pending : event.phases thread = .pending (.wait frame.milliseconds) := by
    simp [phases, place, Pc.phase]
  have ok := consistent.frames thread frame (by rw [place]; rfl)
  have signaled := consistent.signaled thread frame place
  have kind := linearizes.kind
  unfold Event.consume
  dsimp only
  split_ifs with taken
  · obtain ⟨success, autoReset⟩ : frame.error = 0 ∧ event.isManualReset = false := by
      simpa using taken
    refine linearizes.take (.wait frame.milliseconds) rfl rfl ?_ pending ok.error rfl
    simp [applyEffect, success, signaled success, ← kind, autoReset]
  · refine linearizes.take (.wait frame.milliseconds) rfl rfl ?_ pending ok.error rfl
    by_cases success : frame.error = 0
    · have byHand : event.isManualReset = true := by simpa [success] using taken
      simp [applyEffect, success, signaled success, ← kind, byHand]
    · simp [applyEffect, success]

/-- One step of a thread inside a call keeps the calls linearized, by cases on where it is. -/
theorem run_linearizes {event : Event θ} (consistent : Consistent event)
    (linearizes : Linearizes isManualReset initial history event) {thread : θ}
    {reached : Event θ × List (Notice θ)} (enabled : reached ∈ event.run thread)
    : Linearizes isManualReset initial (history ++ reached.2) reached.1 := by
  unfold run at enabled
  split at enabled
  next => cases enabled
  next place => exact linearizes.lock (by rw [place]; rfl) enabled
  next place =>
    obtain rfl := Option.some.inj enabled
    exact linearizes.take .set rfl rfl rfl (by simp [phases, place, Pc.phase])
      trivial rfl
  next place =>
    obtain rfl := Option.some.inj enabled
    refine ⟨linearizes.kind, linearizes.calls.silent ?_⟩
    intro other
    rw [phases_goto _ (by simp [Event.broadcast, place, Pc.wake, Pc.phase])]
    simp [phases, Event.broadcast]
  next place =>
    exact linearizes.unlock .set (by simp [phases, place, Pc.phase]) enabled
  next place => exact linearizes.lock (by rw [place]; rfl) enabled
  next place =>
    obtain rfl := Option.some.inj enabled
    exact linearizes.take .reset rfl rfl rfl (by simp [phases, place, Pc.phase])
      trivial rfl
  next place =>
    exact linearizes.unlock .reset (by simp [phases, place, Pc.phase]) enabled
  next frame place => exact linearizes.lock (by rw [place]; rfl) enabled
  next frame place => exact linearizes.loop place enabled
  next => cases enabled
  next frame place => exact linearizes.lock (by rw [place]; rfl) enabled
  next frame place =>
    obtain rfl := Option.some.inj enabled
    exact linearizes.consume consistent place
  next frame place =>
    exact linearizes.unlock (.waited frame.error) (by simp [phases, place, Pc.phase])
      enabled

/-- Every step of the system keeps the calls linearized. -/
theorem step_linearizes {event : Event θ} (consistent : Consistent event)
    (linearizes : Linearizes isManualReset initial history event) {label : Label θ}
    {reached : Event θ × List (Notice θ)} (enabled : reached ∈ event.step label)
    : Linearizes isManualReset initial (history ++ reached.2) reached.1 := by
  cases label with
  | call thread operation now =>
      unfold step at enabled
      dsimp only at enabled
      split_ifs at enabled with place
      · obtain rfl := Option.some.inj enabled
        refine ⟨linearizes.kind, linearizes.calls.observe rfl ?_ ?_⟩
        · change (sequential θ isManualReset).Follows (event.phases thread) _
            ((event.goto thread (entry operation now)).phases thread)
          have idle : event.phases thread = .idle := by simp [phases, place, Pc.phase]
          have pending : (entry operation now).phase = .pending operation := by
            cases operation <;> rfl
          rw [idle, phases_goto_self, pending]
          exact .called thread operation
        · intro other different
          exact phases_goto_other _ _ different
      · cases enabled
  | run thread => exact run_linearizes consistent linearizes enabled
  | spurious thread =>
      unfold step at enabled
      dsimp only at enabled
      split at enabled
      next frame place =>
        obtain rfl := Option.some.inj enabled
        exact ⟨linearizes.kind, linearizes.calls.silent (phases_goto _ (by rw [place]; rfl))⟩
      next => cases enabled
  | timeout thread =>
      unfold step at enabled
      dsimp only at enabled
      split at enabled
      next frame place =>
        split_ifs at enabled with limited
        · obtain rfl := Option.some.inj enabled
          exact ⟨linearizes.kind, linearizes.calls.silent (phases_goto _ (by rw [place]; rfl))⟩
        · cases enabled
      next => cases enabled

end RtcBase.Threads.Event

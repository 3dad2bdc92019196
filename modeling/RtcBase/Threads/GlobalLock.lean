import RtcBase.Library.Interleaving
import Mathlib.Tactic.Common

/-! The spin lock for global variables of `critical_section.cpp`, used through its scope: threads
enter, update the protected data in steps that are not atomic, and leave, in any interleaving.
-/

namespace RtcBase.Threads

open RtcBase.Library

/-- `AtomicOps::compare_and_swap`: the new contents of the cell and the value it held. -/
def compareAndSwap (cell oldValue newValue : Int) : Int × Int :=
  (if cell = oldValue then newValue else cell, cell)

namespace GlobalLock

variable {κ δ : Type*}

/-- Where a thread is with a scope. The body of the scope is a list of updates, each of which reads
the data into a local variable first and writes it back later.
-/
inductive Pc (κ δ : Type*) where
  | outside
  -- about to try the compare-and-swap of `lock`
  | spin (body : List κ)
  -- in `nanosleep` after it failed
  | nap (body : List κ)
  | inside (finished rest : List κ)
  | copied (finished : List κ) (update : κ) (rest : List κ) (value : δ)
  -- after the compare-and-swap of `unlock`, which returned `oldValue`
  | unlocked (body : List κ) (oldValue : Int)
deriving DecidableEq, Repr

end GlobalLock

open GlobalLock

/-- A lock, the data that it protects and the threads that use it. -/
structure GlobalLock (θ κ δ : Type*) where
  lockAcquired : Int
  data : δ
  -- how often "Unlock called without calling Lock first" was logged
  warnings : Nat
  pc : θ → Pc κ δ

namespace GlobalLock

variable {θ κ δ : Type*} [DecidableEq θ] (act : κ → δ → δ)

/-- What the threads observe: a scope with its body begins, takes effect as a whole, ends. -/
abbrev Notice (θ κ : Type*) := Observation θ (List κ) (List κ) Unit

def create (data : δ) : GlobalLock θ κ δ where
  lockAcquired := 0
  data := data
  warnings := 0
  pc := fun _ => .outside

def goto (lock : GlobalLock θ κ δ) (thread : θ) (next : Pc κ δ) : GlobalLock θ κ δ :=
  { lock with pc := Function.update lock.pc thread next }

/-- One round of the loop in `GlobalLockPod::lock`. -/
def tryLock (lock : GlobalLock θ κ δ) (thread : θ) (body : List κ) : GlobalLock θ κ δ :=
  let swapped := compareAndSwap lock.lockAcquired 0 1
  { lock with lockAcquired := swapped.1 }.goto thread
    (if swapped.2 ≠ 0 then .nap body else .inside [] body)

/-- The compare-and-swap of `GlobalLockPod::unlock`, at which the body of the scope is over. -/
def tryUnlock (lock : GlobalLock θ κ δ) (thread : θ) (body : List κ) : GlobalLock θ κ δ :=
  let swapped := compareAndSwap lock.lockAcquired 1 0
  { lock with lockAcquired := swapped.1 }.goto thread (.unlocked body swapped.2)

/-- The rest of `unlock`: a warning if the lock was not taken. -/
def warn (lock : GlobalLock θ κ δ) (thread : θ) (oldValue : Int) : GlobalLock θ κ δ :=
  (if oldValue ≠ 1 then { lock with warnings := lock.warnings + 1 } else lock).goto thread .outside

/-- One step of a thread that is inside a scope's constructor, body or destructor. -/
def run (lock : GlobalLock θ κ δ) (thread : θ) : Option (GlobalLock θ κ δ × List (Notice θ κ)) :=
  match lock.pc thread with
  | .outside => none
  | .spin body => some (lock.tryLock thread body, [])
  | .nap body => some (lock.goto thread (.spin body), [])
  | .inside finished (update :: rest) =>
      some (lock.goto thread (.copied finished update rest lock.data), [])
  | .copied finished update rest value =>
      some
        ({ lock with data := act update value }.goto thread (.inside (finished ++ [update]) rest),
        [])
  | .inside finished [] => some (lock.tryUnlock thread finished, [.took thread finished])
  | .unlocked _ oldValue => some (lock.warn thread oldValue, [.returned thread ()])

inductive Label (θ κ : Type*) where
  | enter (thread : θ) (body : List κ)
  | run (thread : θ)
deriving DecidableEq, Repr

def step (lock : GlobalLock θ κ δ) : Label θ κ → Option (GlobalLock θ κ δ × List (Notice θ κ))
  | .enter thread body =>
      match lock.pc thread with
      | .outside => some (lock.goto thread (.spin body), [.called thread body])
      | _ => none
  | .run thread => lock.run act thread

section Serialization

/-- The updates that the body of a scope has made so far; `none` for a thread that does not hold the
lock.
-/
def Pc.progress : Pc κ δ → Option (List κ)
  | .inside finished _ => some finished
  | .copied finished _ _ _ => some finished
  | _ => none

/-- The effect of a whole body on the data. -/
def applyBody (body : List κ) (data : δ) : δ :=
  body.foldl (fun value update => act update value) data

@[simp] theorem applyBody_nil (data : δ) : applyBody act [] data = data := rfl

@[simp] theorem applyBody_snoc (body : List κ) (update : κ) (data : δ)
    : applyBody act (body ++ [update]) data = act update (applyBody act body data) := by
  simp [applyBody]

/-- Bodies that each run at one moment on data that nobody else touches. -/
def sequential (θ : Type*) : ObjectSpec δ θ (List κ) (List κ) Unit where
  apply data effect := some (applyBody act effect.2 data)
  fits body effect := effect = body
  answer _ := ()

def Pc.phase : Pc κ δ → CallPhase (List κ) (List κ)
  | .outside => .idle
  | .spin body => .pending body
  | .nap body => .pending body
  | .inside finished rest => .pending (finished ++ rest)
  | .copied finished update rest _ => .pending (finished ++ update :: rest)
  | .unlocked body _ => .done body

def phases (lock : GlobalLock θ κ δ) (thread : θ) : CallPhase (List κ) (List κ) :=
  (lock.pc thread).phase

/-- What holds between any two steps: the cell says whether there is an owner, the owner is the one
thread inside a body, and its updates so far are all that was done to the data since `present`, the
data as the last scope left it.
-/
structure Consistent (lock : GlobalLock θ κ δ) (present : δ) (owner : Option θ) : Prop where
  owns : ∀ thread, (lock.pc thread).progress.isSome = true ↔ owner = some thread
  cell : lock.lockAcquired = if owner.isSome then 1 else 0
  quiet : owner = none → lock.data = present
  progress
    : ∀ thread finished,
        (lock.pc thread).progress = some finished → lock.data = applyBody act finished present
  copies
    : ∀ thread finished update rest value,
        lock.pc thread = .copied finished update rest value → value = lock.data
  unlocks : ∀ thread body oldValue, lock.pc thread = .unlocked body oldValue → oldValue = 1
  silent : lock.warnings = 0

variable {act} {lock later : GlobalLock θ κ δ} {present after : δ} {owner heir : Option θ}

/-- One thread moves: what there is to check of the new state. The others keep their place, and
those of them that read the data are not inside a body while this thread changes it.
-/
theorem Consistent.move (consistent : Consistent act lock present owner) (thread : θ)
    (next : Pc κ δ) (place : later.pc = Function.update lock.pc thread next)
    (owns
      : (next.progress.isSome = true ↔ heir = some thread)
        ∧ ∀ other, other ≠ thread → (owner = some other ↔ heir = some other))
    (cell : later.lockAcquired = if heir.isSome then 1 else 0)
    (quiet : heir = none → later.data = after)
    (progress
      : ∀ finished, next.progress = some finished → later.data = applyBody act finished after)
    (others : later.data = lock.data ∧ after = present ∨ owner = some thread)
    (copies
      : ∀ finished update rest value,
          next = .copied finished update rest value → value = later.data)
    (unlocks : ∀ body oldValue, next = .unlocked body oldValue → oldValue = 1)
    (silent : later.warnings = 0)
    : Consistent act later after heir := by
  have undisturbed {other : θ} (different : other ≠ thread) (finished : List κ)
      (there : (lock.pc other).progress = some finished)
      : later.data = lock.data ∧ after = present := by
    refine others.resolve_right fun owned => different ?_
    have owner := (consistent.owns other).mp (by rw [there]; rfl)
    rw [owned, Option.some.injEq] at owner
    exact owner.symm
  refine ⟨?_, cell, quiet, ?_, ?_, ?_, silent⟩
  · intro other
    by_cases same : other = thread
    · subst same
      simpa [place] using owns.1
    · simpa [place, same] using (consistent.owns other).trans (owns.2 other same)
  · intro other finished there
    by_cases same : other = thread
    · subst same
      exact progress finished (by simpa [place] using there)
    · have before : (lock.pc other).progress = some finished := by simpa [place, same] using there
      obtain ⟨sameData, samePresent⟩ := undisturbed same finished before
      rw [sameData, samePresent]
      exact consistent.progress other finished before
  · intro other finished update rest value there
    by_cases same : other = thread
    · subst same
      exact copies finished update rest value (by simpa [place] using there)
    · have before : lock.pc other = .copied finished update rest value := by
        simpa [place, same] using there
      have sameData := (undisturbed same finished (by rw [before]; rfl)).1
      rw [sameData]
      exact consistent.copies other finished update rest value before
  · intro other body oldValue there
    by_cases same : other = thread
    · subst same
      exact unlocks body oldValue (by simpa [place] using there)
    · exact consistent.unlocks other body oldValue (by simpa [place, same] using there)

/-- A move that keeps the lock and the data. -/
theorem Consistent.goto (consistent : Consistent act lock present owner) {thread : θ}
    {next : Pc κ δ} (same : next.progress = (lock.pc thread).progress)
    (copies
      : ∀ finished update rest value,
          next = .copied finished update rest value → value = lock.data)
    (unlocks : ∀ body oldValue, next = .unlocked body oldValue → oldValue = 1)
    : Consistent act (lock.goto thread next) present owner := by
  refine consistent.move thread _ rfl ⟨?_, fun _ _ => Iff.rfl⟩ consistent.cell
    consistent.quiet ?_ (.inl ⟨rfl, rfl⟩) copies unlocks consistent.silent
  · rw [same]
    exact consistent.owns thread
  · intro finished there
    exact consistent.progress thread finished (same ▸ there)

/-- A round of the loop in `lock`: the lock is taken if nobody owns it, else nothing happens. -/
theorem Consistent.tryLock (consistent : Consistent act lock present owner) {thread : θ}
    {body : List κ} (place : lock.pc thread = .spin body)
    : ∃ heir, Consistent act (lock.tryLock thread body) present heir := by
  cases owner with
  | none =>
      have free : lock.lockAcquired = 0 := by simpa using consistent.cell
      refine ⟨some thread, ?_⟩
      simp only [GlobalLock.tryLock, compareAndSwap, free]
      refine consistent.move thread _ rfl ⟨by simp [Pc.progress], ?_⟩ rfl (by simp) ?_
        (.inl ⟨rfl, rfl⟩) (by simp) (by simp) consistent.silent
      · intro other different
        simp [Ne.symm different]
      · intro finished there
        obtain rfl : [] = finished := by simpa [Pc.progress] using there
        exact consistent.quiet rfl
  | some other =>
      have taken : lock.lockAcquired = 1 := by simpa using consistent.cell
      refine ⟨some other, ?_⟩
      simp only [GlobalLock.tryLock, compareAndSwap, taken]
      exact consistent.move thread (.nap body) rfl
        ⟨by rw [← consistent.owns thread, place]; rfl, fun _ _ => Iff.rfl⟩ rfl (by simp)
        (by simp [Pc.progress]) (.inl ⟨rfl, rfl⟩) (by simp) (by simp) consistent.silent

/-- The owner's `unlock` finds the lock taken and publishes the body's updates. -/
theorem Consistent.tryUnlock (consistent : Consistent act lock present owner) {thread : θ}
    {body : List κ} (place : lock.pc thread = .inside body [])
    : Consistent act (lock.tryUnlock thread body) (applyBody act body present) none := by
  have owned := (consistent.owns thread).mp (by rw [place]; rfl)
  have taken : lock.lockAcquired = 1 := by simpa [owned] using consistent.cell
  have data := consistent.progress thread body (by rw [place]; rfl)
  simp only [GlobalLock.tryUnlock, compareAndSwap, taken]
  refine consistent.move thread _ rfl ⟨by simp [Pc.progress], ?_⟩ rfl (fun _ => data)
    (by simp [Pc.progress]) (.inr owned) (by simp) ?_ consistent.silent
  · intro other different
    simp [owned, Ne.symm different]
  · intro same oldValue equal
    exact (Pc.unlocked.inj equal).2.symm

/-- The store of an update: the value that was read is still the data. -/
theorem Consistent.store (consistent : Consistent act lock present owner) {thread : θ}
    {finished rest : List κ} {update : κ} {value : δ}
    (place : lock.pc thread = .copied finished update rest value)
    : Consistent act
        ({ lock with data := act update value }.goto thread (.inside (finished ++ [update]) rest))
        present owner := by
  have owned := (consistent.owns thread).mp (by rw [place]; rfl)
  refine consistent.move thread _ rfl ⟨by simp [owned, Pc.progress], fun _ _ => Iff.rfl⟩
    consistent.cell (by simp [owned]) ?_ (.inr owned) (by simp) (by simp) consistent.silent
  intro done there
  obtain rfl : finished ++ [update] = done := by simpa [Pc.progress] using there
  have current := consistent.copies thread finished update rest value place
  have data := consistent.progress thread finished (by rw [place]; rfl)
  change act update value = _
  rw [current, data, applyBody_snoc]

/-- The rest of `unlock` logs nothing, since the lock was taken. -/
theorem Consistent.warn (consistent : Consistent act lock present owner) {thread : θ}
    {body : List κ} {oldValue : Int} (place : lock.pc thread = .unlocked body oldValue)
    : Consistent act (lock.warn thread oldValue) present owner := by
  obtain rfl := consistent.unlocks thread body oldValue place
  exact consistent.goto (by rw [place]; rfl) (by simp) (by simp)

@[simp] theorem phases_goto_self (lock : GlobalLock θ κ δ) (thread : θ) (next : Pc κ δ)
    : (lock.goto thread next).phases thread = next.phase := by simp [phases, GlobalLock.goto]

theorem phases_goto_other (lock : GlobalLock θ κ δ) {thread other : θ} (next : Pc κ δ)
    (different : other ≠ thread)
    : (lock.goto thread next).phases other = lock.phases other := by
  simp [phases, GlobalLock.goto, different]

/-- A move inside a phase changes no phase. -/
theorem phases_goto (lock : GlobalLock θ κ δ) {thread : θ} {next : Pc κ δ}
    (same : next.phase = (lock.pc thread).phase) (other : θ)
    : (lock.goto thread next).phases other = lock.phases other := by
  by_cases equal : other = thread
  · subst equal
    rw [phases_goto_self, same]
    rfl
  · exact phases_goto_other lock next equal

/-- The scopes so far happened one after the other and led to `present`. -/
def Serial (act : κ → δ → δ) (initial : δ) (history : List (Notice θ κ)) (lock : GlobalLock θ κ δ)
    : Prop :=
  ∃ present owner,
    Consistent act lock present owner
    ∧ (sequential act θ).Linearized initial history lock.phases present

/-- A new lock is serial. -/
theorem create_serial (initial : δ)
    : Serial act initial [] (create initial : GlobalLock θ κ δ) := by
  refine ⟨initial, none, ⟨?_, rfl, fun _ => rfl, ?_, ?_, ?_, rfl⟩, .start fun _ => rfl⟩
  · simp [create, Pc.progress]
  · simp [create, Pc.progress]
  · simp [create]
  · simp [create]

/-- One step of a thread keeps the scopes serial, by cases on where the thread is. -/
theorem run_serial {initial : δ} {history : List (Notice θ κ)}
    (serial : Serial act initial history lock) {thread : θ}
    {reached : GlobalLock θ κ δ × List (Notice θ κ)} (enabled : reached ∈ lock.run act thread)
    : Serial act initial (history ++ reached.2) reached.1 := by
  obtain ⟨present, owner, consistent, calls⟩ := serial
  unfold run at enabled
  split at enabled
  next => cases enabled
  next body place =>
    obtain rfl := Option.some.inj enabled
    obtain ⟨heir, kept⟩ := consistent.tryLock place
    refine ⟨present, heir, kept, calls.silent (phases_goto _ ?_)⟩
    rw [place]
    split_ifs <;> rfl
  next body place =>
    obtain rfl := Option.some.inj enabled
    exact ⟨present, owner, consistent.goto (by rw [place]; rfl) (by simp) (by simp),
      calls.silent (phases_goto _ (by rw [place]; rfl))⟩
  next finished update rest place =>
    obtain rfl := Option.some.inj enabled
    exact ⟨present, owner,
      consistent.goto (by rw [place]; rfl) (fun _ _ _ _ equal => (Pc.copied.inj equal).2.2.2.symm)
        (by simp),
      calls.silent (phases_goto _ (by rw [place]; rfl))⟩
  next finished update rest value place =>
    obtain rfl := Option.some.inj enabled
    exact ⟨present, owner, consistent.store place,
      calls.silent (phases_goto _ (by rw [place]; simp [Pc.phase]))⟩
  next finished place =>
    obtain rfl := Option.some.inj enabled
    refine ⟨applyBody act finished present, none, consistent.tryUnlock place,
      calls.take finished rfl ?_ rfl ?_ ?_⟩
    · simp [phases, place, Pc.phase]
    · exact phases_goto_self _ _ _
    · intro other different
      exact phases_goto_other _ _ different
  next body oldValue place =>
    obtain rfl := Option.some.inj enabled
    refine ⟨present, owner, consistent.warn place, calls.observe rfl ?_ ?_⟩
    · change (sequential act θ).Follows (lock.phases thread) _
        ((lock.warn thread oldValue).phases thread)
      have done : lock.phases thread = .done body := by simp [phases, place, Pc.phase]
      rw [done, warn, phases_goto_self]
      exact .returned thread body
    · intro other different
      change other ≠ thread at different
      change (lock.warn thread oldValue).phases other = _
      rw [warn, phases_goto_other _ _ different]
      split_ifs <;> rfl

/-- Every step of the system keeps the scopes serial. -/
theorem step_serial {initial : δ} {history : List (Notice θ κ)} {label : Label θ κ}
    {reached : GlobalLock θ κ δ × List (Notice θ κ)} (enabled : reached ∈ lock.step act label)
    (serial : Serial act initial history lock)
    : Serial act initial (history ++ reached.2) reached.1 := by
  cases label with
  | enter thread body =>
      unfold step at enabled
      dsimp only at enabled
      split at enabled
      next place =>
        obtain rfl := Option.some.inj enabled
        obtain ⟨present, owner, consistent, calls⟩ := serial
        refine ⟨present, owner, consistent.goto (by rw [place]; rfl) (by simp) (by simp),
          calls.observe rfl ?_ ?_⟩
        · change (sequential act θ).Follows (lock.phases thread) _
            ((lock.goto thread (.spin body)).phases thread)
          have idle : lock.phases thread = .idle := by simp [phases, place, Pc.phase]
          rw [idle, phases_goto_self]
          exact .called thread body
        · intro other different
          exact phases_goto_other _ _ different
      next => cases enabled
  | run thread => exact run_serial serial enabled

/-- In every interleaving of any number of threads the scopes of a global lock are serializable: at
most one thread is inside a body, `lock_acquired` is 1 exactly then, and the data that a body reads
and writes step by step ends up as if the bodies had run whole, one after the other, in the order of
their unlocks, each between its scope's beginning and end. `unlock` never logs its warning.
-/
theorem global_lock_scopes_serializable (act : κ → δ → δ) (initial : δ) {labels : List (Label θ κ)}
    {reached : GlobalLock θ κ δ × List (Notice θ κ)}
    (runs : reached ∈ runSchedule (step act) (create initial) labels)
    : (∃ present,
        (sequential act θ).Linearized initial reached.2 reached.1.phases present
        ∧ ((∀ thread, (reached.1.pc thread).progress = none) → reached.1.data = present))
      ∧ (∀ first second,
          (reached.1.pc first).progress.isSome = true
          → (reached.1.pc second).progress.isSome = true
          → first = second)
      ∧ (reached.1.lockAcquired = 1 ↔ ∃ thread, (reached.1.pc thread).progress.isSome = true)
      ∧ reached.1.warnings = 0 := by
  obtain ⟨present, owner, consistent, calls⟩ : Serial act initial reached.2 reached.1 :=
    runSchedule_invariant _ (fun _ _ _ _ enabled holds => step_serial enabled holds)
      (create_serial initial) runs
  refine ⟨⟨present, calls, ?_⟩, ?_, ?_, consistent.silent⟩
  · intro nobody
    refine consistent.quiet ?_
    cases owned : owner with
    | none => rfl
    | some thread =>
        have inside := (consistent.owns thread).mpr owned
        simp [nobody thread] at inside
  · intro first second firstInside secondInside
    have owns := (consistent.owns first).mp firstInside
    rw [(consistent.owns second).mp secondInside, Option.some.injEq] at owns
    exact owns.symm
  · rw [consistent.cell]
    simp only [consistent.owns]
    cases owner <;> simp

/-- Two threads add to a counter; the second one meets the lock taken. -/
def contended : List (Label Bool Int) :=
  [.enter true [5, 7], .enter false [1], .run true, .run false, .run true, .run false, .run true,
    .run true, .run true, .run false, .run true, .run true, .run false, .run false, .run false,
    .run false, .run false, .run false]

theorem global_lock_scopes_serializable_contended
    : ∃ reached ∈ runSchedule (step (· + ·)) (create 10) contended,
        reached.1.data = 23
        ∧ reached.2
          = [.called true [5, 7], .called false [1], .took true [5, 7], .returned true (),
              .took false [1], .returned false ()]
        ∧ reached.1.warnings = 0 := by
  have finishes : (runSchedule (step (· + ·)) (create 10) contended).isSome = true := by decide
  obtain ⟨reached, runs⟩ := Option.isSome_iff_exists.mp finishes
  have observed
      : (runSchedule (step (· + ·)) (create 10) contended).map
          (fun reached => (reached.1.data, reached.2))
        = some (23, [.called true [5, 7], .called false [1], .took true [5, 7], .returned true (),
            .took false [1], .returned false ()]) := by
    decide
  rw [runs] at observed
  obtain ⟨data, history⟩ := Prod.mk.inj (Option.some.inj observed)
  exact ⟨reached, runs, data, history,
    (global_lock_scopes_serializable (· + ·) 10 runs).2.2.2⟩

end Serialization

end GlobalLock

end RtcBase.Threads

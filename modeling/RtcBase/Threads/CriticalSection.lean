import RtcBase.Library.Interleaving
import Mathlib.Logic.Relation
import Mathlib.Tactic.Common

/-! Operations whose whole body is the scope of a `CriticalSection`. Threads call them in any
interleaving; a statement of a body reads the guarded data first and writes it later, so that only
the lock keeps the statements of different threads apart.
-/

namespace RtcBase.Threads

open RtcBase.Library

/-- The recursive mutex of a `CriticalSection`: which thread has it, and how often. -/
structure CriticalSection (θ : Type*) where
  owner : Option θ
  count : Nat
deriving DecidableEq, Repr

/-- The bodies of the operations on guarded data: where an operation starts, and what a statement
does with the local variables and the data. It goes on, or it is over with a result; `none` is a
statement whose behaviour is undefined.
-/
structure Bodies (δ ο ℓ ρ : Type*) where
  start : ο → ℓ
  statement : ℓ → δ → Option ((ℓ ⊕ ρ) × δ)

namespace CriticalSection

variable {θ δ ο ℓ ρ : Type*}

def create : CriticalSection θ := ⟨none, 0⟩

section Mutex

variable [DecidableEq θ]

/-- `CriticalSection::enter`; `none` while another thread has the mutex. -/
def enter (crit : CriticalSection θ) (thread : θ) : Option (CriticalSection θ) :=
  match crit.owner with
  | none => some ⟨some thread, 1⟩
  | some owner => if owner = thread then some { crit with count := crit.count + 1 } else none

/-- `CriticalSection::leave`, which fails in a thread that does not have the mutex. -/
def leave (crit : CriticalSection θ) (thread : θ) : CriticalSection θ :=
  if crit.owner = some thread then
    if crit.count = 1 then ⟨none, 0⟩ else { crit with count := crit.count - 1 }
  else crit

end Mutex

/-- Where a thread is with an operation. -/
inductive Pc (δ ο ℓ ρ : Type*) where
  | outside
  -- in the constructor of `CritScope`
  | entering (operation : ο)
  | inside (operation : ο) (locals : ℓ)
  -- between the reads and the writes of a statement
  | copied (operation : ο) (locals : ℓ) (value : δ)
  -- in the destructor of `CritScope`
  | leaving (operation : ο) (result : ρ)
  | left (operation : ο) (result : ρ)
  | undefined
deriving DecidableEq, Repr

/-- What the threads observe: an operation begins, takes effect with its result, returns it. -/
abbrev Notice (θ ο ρ : Type*) := Observation θ ο (ο × ρ) ρ

/-- A critical section, the data that it guards and the threads that use it. -/
structure Shared (θ δ ο ℓ ρ : Type*) where
  crit : CriticalSection θ
  data : δ
  pc : θ → Pc δ ο ℓ ρ

inductive Label (θ ο : Type*) where
  | call (thread : θ) (operation : ο)
  | run (thread : θ)
deriving DecidableEq, Repr

namespace Shared

variable [DecidableEq θ]

def create (data : δ) : Shared θ δ ο ℓ ρ := ⟨.create, data, fun _ => .outside⟩

def goto (shared : Shared θ δ ο ℓ ρ) (thread : θ) (next : Pc δ ο ℓ ρ) : Shared θ δ ο ℓ ρ :=
  { shared with pc := Function.update shared.pc thread next }

/-- The writes of a statement that was begun with the data as they were then. -/
def store (bodies : Bodies δ ο ℓ ρ) (shared : Shared θ δ ο ℓ ρ) (thread : θ) (operation : ο)
    (locals : ℓ) (value : δ) : Shared θ δ ο ℓ ρ :=
  match bodies.statement locals value with
  | none => shared.goto thread .undefined
  | some (.inl next, data) => { shared with data := data }.goto thread (.inside operation next)
  | some (.inr result, data) =>
      { shared with data := data }.goto thread (.leaving operation result)

/-- One step of a thread that is inside an operation. -/
def run (bodies : Bodies δ ο ℓ ρ) (shared : Shared θ δ ο ℓ ρ) (thread : θ)
    : Option (Shared θ δ ο ℓ ρ × List (Notice θ ο ρ)) :=
  match shared.pc thread with
  | .outside => none
  | .entering operation =>
      (shared.crit.enter thread).map fun crit =>
        ({ shared with crit := crit }.goto thread (.inside operation (bodies.start operation)), [])
  | .inside operation locals =>
      some (shared.goto thread (.copied operation locals shared.data), [])
  | .copied operation locals value =>
      some (shared.store bodies thread operation locals value, [])
  | .leaving operation result =>
      some
        ({ shared with crit := shared.crit.leave thread }.goto thread (.left operation result),
        [.took thread (operation, result)])
  | .left _ result => some (shared.goto thread .outside, [.returned thread result])
  | .undefined => none

def step (bodies : Bodies δ ο ℓ ρ) (shared : Shared θ δ ο ℓ ρ)
    : Label θ ο → Option (Shared θ δ ο ℓ ρ × List (Notice θ ο ρ))
  | .call thread operation =>
      match shared.pc thread with
      | .outside => some (shared.goto thread (.entering operation), [.called thread operation])
      | _ => none
  | .run thread => shared.run bodies thread

end Shared

section Alone

variable (bodies : Bodies δ ο ℓ ρ)

/-- A statement of a thread that has the data to itself. -/
def Advances (before after : (ℓ ⊕ ρ) × δ) : Prop :=
  ∃ locals, before.1 = .inl locals ∧ bodies.statement locals before.2 = some after

/-- Statements of a thread that has the data to itself. -/
abbrev Reaches : (ℓ ⊕ ρ) × δ → (ℓ ⊕ ρ) × δ → Prop := Relation.ReflTransGen (Advances bodies)

/-- Each body, on data that stand for a model, ends with the result and on the data that the model
has for the operation.
-/
def Implements {α : Type*} (perform : α → ο → ρ × α) (represents : δ → α → Prop) : Prop :=
  ∀ data model operation, represents data model →
    ∃ after,
      Reaches bodies (.inl (bodies.start operation), data) (.inr (perform model operation).1, after)
      ∧ represents after (perform model operation).2

variable {bodies} {locals : ℓ} {data : δ} {result : ρ} {final : (ℓ ⊕ ρ) × δ}

/-- A run begins with a statement. -/
theorem Reaches.first {next : (ℓ ⊕ ρ) × δ} (executes : bodies.statement locals data = some next)
    (rest : Reaches bodies next final)
    : Reaches bodies (.inl locals, data) final :=
  .head ⟨locals, rfl, executes⟩ rest

/-- A run that is not over goes on with its next statement, which is defined. -/
theorem Reaches.goes_on {after : δ}
    (reaches : Reaches bodies (.inl locals, data) (.inr result, after))
    : ∃ next, bodies.statement locals data = some next
        ∧ Reaches bodies next (.inr result, after) := by
  obtain equal | ⟨next, ⟨same, starts, executes⟩, rest⟩ := Relation.ReflTransGen.cases_head reaches
  · cases equal
  · obtain rfl := Sum.inl.inj starts
    exact ⟨next, executes, rest⟩

/-- A run that is over does nothing. -/
theorem Reaches.is_over (reaches : Reaches bodies (.inr result, data) final)
    : final = (.inr result, data) := by
  obtain equal | ⟨next, ⟨same, starts, -⟩, -⟩ := Relation.ReflTransGen.cases_head reaches
  · exact equal.symm
  · cases starts

end Alone

section Linearization

variable {α : Type*}

/-- What the holder of the section is to do still; `none` for a thread that does not hold it. -/
def Pc.progress : Pc δ ο ℓ ρ → Option (ο × (ℓ ⊕ ρ))
  | .inside operation locals => some (operation, .inl locals)
  | .copied operation locals _ => some (operation, .inl locals)
  | .leaving operation result => some (operation, .inr result)
  | _ => none

def Pc.phase : Pc δ ο ℓ ρ → CallPhase ο (ο × ρ)
  | .outside => .idle
  | .entering operation => .pending operation
  | .inside operation _ => .pending operation
  | .copied operation _ _ => .pending operation
  | .leaving operation _ => .pending operation
  | .left operation result => .done (operation, result)
  | .undefined => .idle

/-- Operations that each happen at one moment, with the model's result. -/
def sequential (θ : Type*) [DecidableEq ρ] (perform : α → ο → ρ × α)
    : ObjectSpec α θ ο (ο × ρ) ρ where
  apply model effect :=
    if effect.2.2 = (perform model effect.2.1).1 then some (perform model effect.2.1).2 else none
  fits operation effect := effect.1 = operation
  answer effect := effect.2

variable [DecidableEq θ]

def Shared.phases (shared : Shared θ δ ο ℓ ρ) (thread : θ) : CallPhase ο (ο × ρ) :=
  (shared.pc thread).phase

variable (bodies : Bodies δ ο ℓ ρ) (perform : α → ο → ρ × α) (represents : δ → α → Prop)

/-- What holds between any two steps: the mutex is held once by the one thread that is inside a
body, if any; what this thread is to do still leads from the data as they are to the model's result
and data; and while there is none the data stand for the model.
-/
structure Consistent (shared : Shared θ δ ο ℓ ρ) (model : α) (owner : Option θ) : Prop where
  owns : ∀ thread, (shared.pc thread).progress.isSome = true ↔ owner = some thread
  mutex : shared.crit = ⟨owner, owner.isSome.toNat⟩
  quiet : owner = none → represents shared.data model
  progress
    : ∀ thread operation place,
        (shared.pc thread).progress = some (operation, place)
        → ∃ after,
            Reaches bodies (place, shared.data) (.inr (perform model operation).1, after)
            ∧ represents after (perform model operation).2
  copies
    : ∀ thread operation locals value,
        shared.pc thread = .copied operation locals value → value = shared.data
  defined : ∀ thread, shared.pc thread ≠ .undefined

variable {bodies perform represents}
variable {shared later : Shared θ δ ο ℓ ρ} {model after : α} {owner heir : Option θ}

/-- One thread moves: what there is to check of the new state. The others keep their place, and none
of them is inside a body while this thread changes the data or the model.
-/
theorem Consistent.move (consistent : Consistent bodies perform represents shared model owner)
    (thread : θ) (next : Pc δ ο ℓ ρ) (place : later.pc = Function.update shared.pc thread next)
    (owns
      : (next.progress.isSome = true ↔ heir = some thread)
        ∧ ∀ other, other ≠ thread → (owner = some other ↔ heir = some other))
    (mutex : later.crit = ⟨heir, heir.isSome.toNat⟩)
    (quiet : heir = none → represents later.data after)
    (progress
      : ∀ operation place,
          next.progress = some (operation, place)
          → ∃ data,
              Reaches bodies (place, later.data) (.inr (perform after operation).1, data)
              ∧ represents data (perform after operation).2)
    (others : later.data = shared.data ∧ after = model ∨ owner = some thread)
    (copies
      : ∀ operation locals value, next = .copied operation locals value → value = later.data)
    (defined : next ≠ .undefined)
    : Consistent bodies perform represents later after heir := by
  have undisturbed {other : θ} (different : other ≠ thread)
      (there : (shared.pc other).progress.isSome = true)
      : later.data = shared.data ∧ after = model := by
    refine others.resolve_right fun owned => different ?_
    have owner := (consistent.owns other).mp there
    rw [owned, Option.some.injEq] at owner
    exact owner.symm
  refine ⟨?_, mutex, quiet, ?_, ?_, ?_⟩
  · intro other
    by_cases same : other = thread
    · subst same
      simpa [place] using owns.1
    · simpa [place, same] using (consistent.owns other).trans (owns.2 other same)
  · intro other operation point there
    by_cases same : other = thread
    · subst same
      exact progress operation point (by simpa [place] using there)
    · have before : (shared.pc other).progress = some (operation, point) := by
        simpa [place, same] using there
      obtain ⟨sameData, rfl⟩ := undisturbed same (by rw [before]; rfl)
      rw [sameData]
      exact consistent.progress other operation point before
  · intro other operation locals value there
    by_cases same : other = thread
    · subst same
      exact copies operation locals value (by simpa [place] using there)
    · have before : shared.pc other = .copied operation locals value := by
        simpa [place, same] using there
      rw [(undisturbed same (by rw [before]; rfl)).1]
      exact consistent.copies other operation locals value before
  · intro other
    by_cases same : other = thread
    · subst same
      simpa [place] using defined
    · simpa [place, same] using consistent.defined other

/-- A move that keeps the section and the data. -/
theorem Consistent.goto (consistent : Consistent bodies perform represents shared model owner)
    {thread : θ} {next : Pc δ ο ℓ ρ} (same : next.progress = (shared.pc thread).progress)
    (copies
      : ∀ operation locals value, next = .copied operation locals value → value = shared.data)
    (defined : next ≠ .undefined)
    : Consistent bodies perform represents (shared.goto thread next) model owner := by
  refine consistent.move thread next rfl ⟨?_, fun _ _ => Iff.rfl⟩ consistent.mutex
    consistent.quiet ?_ (.inl ⟨rfl, rfl⟩) copies defined
  · rw [same]
    exact consistent.owns thread
  · intro operation place there
    exact consistent.progress thread operation place (same ▸ there)

/-- `enter` succeeds only while nobody is inside, and the body then starts on data that stand for
the model.
-/
theorem Consistent.enter (implements : Implements bodies perform represents)
    (consistent : Consistent bodies perform represents shared model owner) {thread : θ}
    {operation : ο} (place : shared.pc thread = .entering operation) {crit : CriticalSection θ}
    (enters : shared.crit.enter thread = some crit)
    : Consistent bodies perform represents
        ({ shared with crit := crit }.goto thread (.inside operation (bodies.start operation)))
        model (some thread) := by
  have notOwner : owner ≠ some thread := by
    rw [Ne, ← consistent.owns thread, place]
    simp [Pc.progress]
  rw [consistent.mutex] at enters
  cases owner with
  | some other =>
      have different : other ≠ thread := fun same => notOwner (congrArg some same)
      simp [CriticalSection.enter, different] at enters
  | none =>
      obtain rfl : (⟨some thread, 1⟩ : CriticalSection θ) = crit := by
        simpa [CriticalSection.enter] using enters
      refine consistent.move thread _ rfl ⟨by simp [Pc.progress], ?_⟩ rfl (by simp) ?_
        (.inl ⟨rfl, rfl⟩) (by simp) (by simp)
      · intro other different
        simp [Ne.symm different]
      · intro same point there
        obtain ⟨rfl, rfl⟩ : operation = same ∧ .inl (bodies.start operation) = point := by
          simpa [Pc.progress] using there
        exact implements shared.data model operation (consistent.quiet rfl)

/-- The writes of a statement are those of a thread that has the data to itself. -/
theorem Consistent.store (consistent : Consistent bodies perform represents shared model owner)
    {thread : θ} {operation : ο} {locals : ℓ} {value : δ}
    (place : shared.pc thread = .copied operation locals value)
    : Consistent bodies perform represents
        (shared.store bodies thread operation locals value) model owner := by
  have owned := (consistent.owns thread).mp (by rw [place]; rfl)
  obtain rfl := consistent.copies thread operation locals value place
  obtain ⟨after, reaches, stands⟩ :=
    consistent.progress thread operation (.inl locals) (by rw [place]; rfl)
  obtain ⟨next, executes, rest⟩ := reaches.goes_on
  have moves (pc : Pc δ ο ℓ ρ) (there : pc.progress = some (operation, next.1))
      (noCopy : ∀ operation locals value, pc ≠ .copied operation locals value)
      : Consistent bodies perform represents
          ({ shared with data := next.2 }.goto thread pc) model owner := by
    refine consistent.move thread pc rfl ⟨by simp [there, owned], fun _ _ => Iff.rfl⟩
      consistent.mutex (by simp [owned]) ?_ (.inr owned) ?_ ?_
    · intro same point equal
      rw [there, Option.some.injEq, Prod.mk.injEq] at equal
      obtain ⟨rfl, rfl⟩ := equal
      exact ⟨after, rest, stands⟩
    · intro operation locals value equal
      exact absurd equal (noCopy operation locals value)
    · rintro rfl
      cases there
  obtain ⟨point, data⟩ := next
  simp only [Shared.store, executes]
  cases point with
  | inl nextLocals => exact moves (.inside operation nextLocals) rfl (by simp)
  | inr result => exact moves (.leaving operation result) rfl (by simp)

/-- `leave` publishes what the body did: its result and the data are the model's. -/
theorem Consistent.leave (consistent : Consistent bodies perform represents shared model owner)
    {thread : θ} {operation : ο} {result : ρ}
    (place : shared.pc thread = .leaving operation result)
    : result = (perform model operation).1
      ∧ Consistent bodies perform represents
          ({ shared with crit := shared.crit.leave thread }.goto thread (.left operation result))
          (perform model operation).2 none := by
  have owned := (consistent.owns thread).mp (by rw [place]; rfl)
  obtain ⟨after, reaches, stands⟩ :=
    consistent.progress thread operation (.inr result) (by rw [place]; rfl)
  obtain ⟨sameResult, sameData⟩ := Prod.mk.inj reaches.is_over
  refine ⟨(Sum.inr.inj sameResult).symm, ?_⟩
  refine consistent.move thread _ rfl ⟨by simp [Pc.progress], ?_⟩ ?_ (fun _ => sameData ▸ stands)
    (by simp [Pc.progress]) (.inr owned) (by simp) (by simp)
  · intro other different
    simp [owned, Ne.symm different]
  · simp [Shared.goto, consistent.mutex, CriticalSection.leave, owned]

@[simp] theorem Shared.phases_goto_self (shared : Shared θ δ ο ℓ ρ) (thread : θ)
    (next : Pc δ ο ℓ ρ)
    : (shared.goto thread next).phases thread = next.phase := by
  simp [Shared.phases, Shared.goto]

theorem Shared.phases_goto_other (shared : Shared θ δ ο ℓ ρ) {thread other : θ}
    (next : Pc δ ο ℓ ρ) (different : other ≠ thread)
    : (shared.goto thread next).phases other = shared.phases other := by
  simp [Shared.phases, Shared.goto, different]

/-- A move inside a phase changes no phase. -/
theorem Shared.phases_goto (shared : Shared θ δ ο ℓ ρ) {thread : θ} {next : Pc δ ο ℓ ρ}
    (same : next.phase = (shared.pc thread).phase) (other : θ)
    : (shared.goto thread next).phases other = shared.phases other := by
  by_cases equal : other = thread
  · subst equal
    rw [phases_goto_self, same]
    rfl
  · exact phases_goto_other shared next equal

variable [DecidableEq ρ]

/-- The operations so far happened one after the other and led to a model. -/
def Linearizes (bodies : Bodies δ ο ℓ ρ) (perform : α → ο → ρ × α) (represents : δ → α → Prop)
    (initial : α) (history : List (Notice θ ο ρ)) (shared : Shared θ δ ο ℓ ρ)
    : Prop :=
  ∃ model owner,
    Consistent bodies perform represents shared model owner
    ∧ (sequential θ perform).Linearized initial history shared.phases model

/-- New guarded data are linearized. -/
theorem create_linearizes {data : δ} {initial : α} (stands : represents data initial)
    : Linearizes bodies perform represents initial []
        (Shared.create data : Shared θ δ ο ℓ ρ) := by
  refine ⟨initial, none, ⟨?_, rfl, fun _ => stands, ?_, ?_, ?_⟩, .start fun _ => rfl⟩ <;>
    simp [Shared.create, Pc.progress]

/-- One step of a thread keeps the operations linearized, by cases on where the thread is. -/
theorem run_linearizes (implements : Implements bodies perform represents) {initial : α}
    {history : List (Notice θ ο ρ)}
    (linearizes : Linearizes bodies perform represents initial history shared) {thread : θ}
    {reached : Shared θ δ ο ℓ ρ × List (Notice θ ο ρ)}
    (enabled : reached ∈ shared.run bodies thread)
    : Linearizes bodies perform represents initial (history ++ reached.2) reached.1 := by
  obtain ⟨model, owner, consistent, calls⟩ := linearizes
  unfold Shared.run at enabled
  split at enabled
  next => cases enabled
  next operation place =>
    obtain ⟨crit, enters, rfl⟩ := Option.map_eq_some_iff.mp enabled
    exact ⟨model, some thread, consistent.enter implements place enters,
      calls.silent (Shared.phases_goto _ (by rw [place]; rfl))⟩
  next operation locals place =>
    obtain rfl := Option.some.inj enabled
    exact ⟨model, owner,
      consistent.goto (by rw [place]; rfl) (fun _ _ _ equal => (Pc.copied.inj equal).2.2.symm)
        (by simp),
      calls.silent (Shared.phases_goto _ (by rw [place]; rfl))⟩
  next operation locals value place =>
    obtain rfl := Option.some.inj enabled
    have kept := consistent.store place
    refine ⟨model, owner, kept, calls.silent fun other => ?_⟩
    have here := kept.defined thread
    unfold Shared.store at here ⊢
    split
    next undefined =>
      simp only [undefined] at here
      simp [Shared.goto] at here
    next => exact Shared.phases_goto _ (by rw [place]; rfl) other
    next => exact Shared.phases_goto _ (by rw [place]; rfl) other
  next operation result place =>
    obtain rfl := Option.some.inj enabled
    obtain ⟨same, kept⟩ := consistent.leave place
    refine ⟨(perform model operation).2, none, kept, calls.take operation ?_ ?_ rfl ?_ ?_⟩
    · simp [sequential, same]
    · simp [Shared.phases, place, Pc.phase]
    · exact Shared.phases_goto_self _ _ _
    · intro other different
      exact Shared.phases_goto_other _ _ different
  next operation result place =>
    obtain rfl := Option.some.inj enabled
    refine ⟨model, owner, consistent.goto (by rw [place]; rfl) (by simp) (by simp),
      calls.observe rfl ?_ ?_⟩
    · change (sequential θ perform).Follows (shared.phases thread) _
        ((shared.goto thread .outside).phases thread)
      have done : shared.phases thread = .done (operation, result) := by
        simp [Shared.phases, place, Pc.phase]
      rw [done, Shared.phases_goto_self]
      exact .returned thread (operation, result)
    · intro other different
      exact Shared.phases_goto_other _ _ different
  next => cases enabled

/-- Every step of the system keeps the operations linearized. -/
theorem step_linearizes (implements : Implements bodies perform represents) {initial : α}
    {history : List (Notice θ ο ρ)} {label : Label θ ο}
    {reached : Shared θ δ ο ℓ ρ × List (Notice θ ο ρ)}
    (enabled : reached ∈ shared.step bodies label)
    (linearizes : Linearizes bodies perform represents initial history shared)
    : Linearizes bodies perform represents initial (history ++ reached.2) reached.1 := by
  cases label with
  | call thread operation =>
      unfold Shared.step at enabled
      dsimp only at enabled
      split at enabled
      next place =>
        obtain rfl := Option.some.inj enabled
        obtain ⟨model, owner, consistent, calls⟩ := linearizes
        refine ⟨model, owner, consistent.goto (by rw [place]; rfl) (by simp) (by simp),
          calls.observe rfl ?_ ?_⟩
        · change (sequential θ perform).Follows (shared.phases thread) _
            ((shared.goto thread (.entering operation)).phases thread)
          have idle : shared.phases thread = .idle := by simp [Shared.phases, place, Pc.phase]
          rw [idle, Shared.phases_goto_self]
          exact .called thread operation
        · intro other different
          exact Shared.phases_goto_other _ _ different
      next => cases enabled
  | run thread => exact run_linearizes implements linearizes enabled

/-- Every schedule keeps the operations linearized. -/
theorem runSchedule_linearizes (implements : Implements bodies perform represents) {data : δ}
    {initial : α} (stands : represents data initial) {labels : List (Label θ ο)}
    {reached : Shared θ δ ο ℓ ρ × List (Notice θ ο ρ)}
    (runs : reached ∈ runSchedule (Shared.step bodies) (.create data) labels)
    : Linearizes bodies perform represents initial reached.2 reached.1 :=
  runSchedule_invariant _
    (fun _ _ _ _ enabled holds => step_linearizes implements enabled holds)
    (create_linearizes stands) runs

end Linearization

section Progress

variable {α : Type*} [DecidableEq θ] {bodies : Bodies δ ο ℓ ρ} {perform : α → ο → ρ × α}
variable {represents : δ → α → Prop} {shared : Shared θ δ ο ℓ ρ} {model : α} {owner : Option θ}

/-- A thread leads the system somewhere by steps of its own. -/
def Shared.RunsTo (bodies : Bodies δ ο ℓ ρ) (thread : θ) (shared : Shared θ δ ο ℓ ρ)
    (goal : Shared θ δ ο ℓ ρ → Prop) : Prop :=
  ∃ n, ∃ reached ∈ runSchedule (Shared.step bodies) shared (List.replicate n (.run thread)),
    goal reached.1

theorem Shared.RunsTo.step {thread : θ} {goal : Shared θ δ ο ℓ ρ → Prop}
    {next : Shared θ δ ο ℓ ρ × List (Notice θ ο ρ)}
    (enabled : shared.run bodies thread = some next) (onward : next.1.RunsTo bodies thread goal)
    : shared.RunsTo bodies thread goal := by
  obtain ⟨n, reached, runs, there⟩ := onward
  exact ⟨n + 1, (reached.1, next.2 ++ reached.2),
    mem_runSchedule_cons.mpr ⟨next, enabled, reached, runs, rfl⟩, there⟩

theorem Shared.run_inside {thread : θ} {operation : ο} {locals : ℓ}
    (place : shared.pc thread = .inside operation locals)
    : shared.run bodies thread
      = some (shared.goto thread (.copied operation locals shared.data), []) := by
  simp only [Shared.run, place]

theorem Shared.run_copied {thread : θ} {operation : ο} {locals : ℓ} {value : δ}
    (place : shared.pc thread = .copied operation locals value)
    : shared.run bodies thread
      = some (shared.store bodies thread operation locals value, []) := by
  simp only [Shared.run, place]

theorem Shared.run_leaving {thread : θ} {operation : ο} {result : ρ}
    (place : shared.pc thread = .leaving operation result)
    : shared.run bodies thread
      = some
          ({ shared with crit := shared.crit.leave thread }.goto thread (.left operation result),
          [.took thread (operation, result)]) := by
  simp only [Shared.run, place]

/-- Who leaves leaves by its next step. -/
theorem Shared.leaving_runsTo {thread : θ} {operation : ο} {result : ρ}
    (place : shared.pc thread = .leaving operation result)
    : shared.RunsTo bodies thread fun reached => reached.pc thread = .left operation result := by
  refine .step (Shared.run_leaving place) ⟨0, _, rfl, ?_⟩
  simp [Shared.goto]

/-- Who is inside a body comes to its end by steps of its own, by induction on the statements that
remain.
-/
theorem Shared.inside_runsTo {thread : θ} {operation : ο} {result : ρ} {locals : ℓ} {after : δ}
    (reaches : Reaches bodies (.inl locals, shared.data) (.inr result, after))
    (place : shared.pc thread = .inside operation locals)
    : shared.RunsTo bodies thread fun reached => reached.pc thread = .left operation result := by
  generalize starts : ((Sum.inl locals : ℓ ⊕ ρ), shared.data) = point at reaches
  induction reaches using Relation.ReflTransGen.head_induction_on generalizing shared locals with
  | refl => cases starts
  | head executes rest ih =>
      obtain ⟨same, equal, executes⟩ := executes
      subst starts
      obtain rfl := Sum.inl.inj equal
      rename_i next
      obtain ⟨point, data⟩ := next
      refine .step (Shared.run_inside place) ?_
      refine .step (Shared.run_copied (Function.update_self _ _ _)) ?_
      simp only [Shared.store, executes]
      cases point with
      | inl nextLocals =>
          exact ih (by simp [Shared.goto]) rfl
      | inr last =>
          obtain ⟨same, -⟩ := Prod.mk.inj (Reaches.is_over rest)
          obtain rfl := Sum.inr.inj same
          exact Shared.leaving_runsTo (by simp [Shared.goto])

/-- Who holds the section leaves it by steps of its own, with the model's result. -/
theorem Consistent.holder_leaves
    (consistent : Consistent bodies perform represents shared model owner) {thread : θ}
    {operation : ο} {place : ℓ ⊕ ρ} (holds : (shared.pc thread).progress = some (operation, place))
    : shared.RunsTo bodies thread fun reached =>
        reached.pc thread = .left operation (perform model operation).1 := by
  obtain ⟨after, reaches, -⟩ := consistent.progress thread operation place holds
  cases pc : shared.pc thread with
  | inside same locals =>
      obtain ⟨rfl, rfl⟩ : same = operation ∧ .inl locals = place := by
        simpa [pc, Pc.progress] using holds
      exact Shared.inside_runsTo reaches pc
  | copied same locals value =>
      obtain ⟨rfl, rfl⟩ : same = operation ∧ .inl locals = place := by
        simpa [pc, Pc.progress] using holds
      obtain rfl := consistent.copies thread same locals value pc
      obtain ⟨⟨point, data⟩, executes, rest⟩ := reaches.goes_on
      refine .step (Shared.run_copied pc) ?_
      simp only [Shared.store, executes]
      cases point with
      | inl nextLocals => exact Shared.inside_runsTo rest (by simp [Shared.goto])
      | inr last =>
          obtain ⟨equal, -⟩ := Prod.mk.inj rest.is_over
          obtain rfl := Sum.inr.inj equal
          exact Shared.leaving_runsTo (by simp [Shared.goto])
  | leaving same last =>
      obtain ⟨rfl, rfl⟩ : same = operation ∧ .inr last = place := by
        simpa [pc, Pc.progress] using holds
      obtain ⟨equal, -⟩ := Prod.mk.inj reaches.is_over
      obtain rfl := Sum.inr.inj equal
      exact Shared.leaving_runsTo pc
  | outside => simp [pc, Pc.progress] at holds
  | entering => simp [pc, Pc.progress] at holds
  | left => simp [pc, Pc.progress] at holds
  | undefined => simp [pc, Pc.progress] at holds

/-- While a call is under way some thread can step: the holder, or else anyone inside a call. -/
theorem Consistent.some_thread_runs
    (consistent : Consistent bodies perform represents shared model owner) {thread : θ}
    (active : shared.pc thread ≠ .outside)
    : ∃ able, (shared.run bodies able).isSome = true := by
  cases owner with
  | some holder =>
      have holds := (consistent.owns holder).mpr rfl
      refine ⟨holder, ?_⟩
      unfold Shared.run
      split <;> simp_all [Pc.progress]
  | none =>
      have free : (shared.pc thread).progress.isSome ≠ true := by
        rw [Ne, consistent.owns thread]
        simp
      have enters : shared.crit.enter thread = some ⟨some thread, 1⟩ := by
        rw [consistent.mutex]
        rfl
      have defined := consistent.defined thread
      refine ⟨thread, ?_⟩
      unfold Shared.run
      split <;> simp_all [Pc.progress]

end Progress

end CriticalSection

end RtcBase.Threads

import Mathlib.Data.List.Basic
import Mathlib.Logic.Function.Basic

/-! Systems of threads that interleave: schedules of a partial step function, the history of what
the steps let others observe, and linearizability of a shared object whose calls take effect at one
step of their own.
-/

namespace RtcBase.Library

section Schedules

variable {σ ι ω : Type*}

/-- The state that a schedule leads to and the history it emits on the way; `none` as soon as a
step of the schedule is not enabled.
-/
def runSchedule (step : σ → ι → Option (σ × List ω)) : σ → List ι → Option (σ × List ω)
  | start, [] => some (start, [])
  | start, label :: rest =>
      (step start label).bind fun next =>
        (runSchedule step next.1 rest).map fun last => (last.1, next.2 ++ last.2)

/-- Every step of the schedule meets `guard`, judged on the state that the step starts from, as far
as the schedule is enabled.
-/
def AlongSchedule (step : σ → ι → Option (σ × List ω)) (guard : σ → ι → Prop) : σ → List ι → Prop
  | _, [] => True
  | start, label :: rest =>
      guard start label ∧ ∀ next ∈ step start label, AlongSchedule step guard next.1 rest

variable {step : σ → ι → Option (σ × List ω)} {guard : σ → ι → Prop}

instance decidableAlongSchedule [∀ state label, Decidable (guard state label)]
    : (start : σ) → (labels : List ι) → Decidable (AlongSchedule step guard start labels)
  | _, [] => isTrue trivial
  | start, label :: rest =>
      have := fun next : σ × List ω => decidableAlongSchedule next.1 rest
      inferInstanceAs (Decidable
        (guard start label ∧ ∀ next ∈ step start label, AlongSchedule step guard next.1 rest))

@[simp] theorem runSchedule_nil (start : σ) : runSchedule step start [] = some (start, []) := rfl

/-- A schedule runs exactly when its first step is enabled and the others run from there. -/
theorem mem_runSchedule_cons {start : σ} {label : ι} {rest : List ι} {reached : σ × List ω}
    : reached ∈ runSchedule step start (label :: rest)
      ↔ ∃ next ∈ step start label,
          ∃ last ∈ runSchedule step next.1 rest, reached = (last.1, next.2 ++ last.2) := by
  simp only [runSchedule, Option.mem_def, Option.bind_eq_some_iff, Option.map_eq_some_iff]
  constructor
  · rintro ⟨next, enabled, last, runs, rfl⟩
    exact ⟨next, enabled, last, runs, rfl⟩
  · rintro ⟨next, enabled, last, runs, rfl⟩
    exact ⟨next, enabled, last, runs, rfl⟩

/-- An invariant of state and history that every enabled step within `guard` keeps holds after every
schedule whose steps are all within it, by induction on the schedule with the earlier history
generalised.
-/
theorem runSchedule_invariant_guarded (invariant : List ω → σ → Prop)
    (preserved
      : ∀ history state label next,
          guard state label
          → next ∈ step state label
          → invariant history state
          → invariant (history ++ next.2) next.1)
    {start : σ} (initial : invariant [] start) {labels : List ι}
    (along : AlongSchedule step guard start labels) {reached : σ × List ω}
    (runs : reached ∈ runSchedule step start labels)
    : invariant reached.2 reached.1 := by
  have onward (history : List ω) (state : σ) (holds : invariant history state)
      (within : AlongSchedule step guard state labels) (last : σ × List ω)
      (continues : last ∈ runSchedule step state labels)
      : invariant (history ++ last.2) last.1 := by
    clear runs along
    induction labels generalizing history state last with
    | nil =>
        obtain rfl : (state, []) = last := by simpa using continues
        simpa using holds
    | cons label rest ih =>
        obtain ⟨next, enabled, last, remaining, rfl⟩ := mem_runSchedule_cons.mp continues
        have kept := preserved history state label next within.1 enabled holds
        have after := ih (history ++ next.2) next.1 kept (within.2 next enabled) last remaining
        simpa [List.append_assoc] using after
  simpa using onward [] start initial along reached runs

/-- An invariant of state and history holds after a schedule when every enabled step into a state
within `bound` keeps it and the schedule passes only through such states.
-/
theorem runSchedule_invariant_bounded (bound : σ → Prop) (invariant : List ω → σ → Prop)
    (preserved
      : ∀ history state label next,
          next ∈ step state label
          → bound next.1
          → invariant history state
          → invariant (history ++ next.2) next.1)
    {start : σ} (initial : invariant [] start) {labels : List ι} {reached : σ × List ω}
    (runs : reached ∈ runSchedule step start labels)
    (bounded : ∀ earlier, earlier <+: labels → ∀ passed ∈ runSchedule step start earlier,
      bound passed.1)
    : invariant reached.2 reached.1 := by
  have along (state : σ)
      (within : ∀ earlier, earlier <+: labels → ∀ passed ∈ runSchedule step state earlier,
        bound passed.1)
      : AlongSchedule step (fun state label => ∀ next ∈ step state label, bound next.1) state
          labels := by
    clear runs bounded
    induction labels generalizing state with
    | nil => trivial
    | cons label rest ih =>
        have onward (next : σ × List ω) (enabled : next ∈ step state label) (first : List ι)
            (isPrefix : first <+: rest) (passed : σ × List ω)
            (there : passed ∈ runSchedule step next.1 first)
            : bound passed.1 :=
          within (label :: first) (List.cons_prefix_cons.mpr ⟨rfl, isPrefix⟩)
            (passed.1, next.2 ++ passed.2)
            (mem_runSchedule_cons.mpr ⟨next, enabled, passed, there, rfl⟩)
        exact ⟨fun next enabled => onward next enabled [] (List.nil_prefix) (next.1, []) rfl,
          fun next enabled => ih next.1 (onward next enabled)⟩
  refine runSchedule_invariant_guarded invariant ?_ initial (along start bounded) runs
  intro history state label next within enabled holds
  exact preserved history state label next enabled (within next enabled) holds

/-- An invariant of state and history that every allowed and enabled step keeps holds after every
schedule of allowed steps.
-/
theorem runSchedule_invariant_allowed (allowed : ι → Prop) (invariant : List ω → σ → Prop)
    (preserved
      : ∀ history state label next,
          allowed label
          → next ∈ step state label
          → invariant history state
          → invariant (history ++ next.2) next.1)
    {start : σ} (initial : invariant [] start) {labels : List ι}
    (all : ∀ label ∈ labels, allowed label) {reached : σ × List ω}
    (runs : reached ∈ runSchedule step start labels)
    : invariant reached.2 reached.1 := by
  have along (state : σ) : AlongSchedule step (fun _ label => allowed label) state labels := by
    clear runs
    induction labels generalizing state with
    | nil => trivial
    | cons label rest ih =>
        obtain ⟨first, others⟩ := List.forall_mem_cons.mp all
        exact ⟨first, fun next _ => ih others next.1⟩
  exact runSchedule_invariant_guarded invariant preserved initial (along start) runs

/-- An invariant of state and history that every enabled step keeps holds after every schedule. -/
theorem runSchedule_invariant (invariant : List ω → σ → Prop)
    (preserved
      : ∀ history state label next,
          next ∈ step state label
          → invariant history state
          → invariant (history ++ next.2) next.1)
    {start : σ} (initial : invariant [] start) {labels : List ι} {reached : σ × List ω}
    (runs : reached ∈ runSchedule step start labels)
    : invariant reached.2 reached.1 :=
  runSchedule_invariant_allowed (fun _ => True) invariant
    (fun history state label next _ enabled holds =>
      preserved history state label next enabled holds)
    initial (fun _ _ => trivial) runs

/-- An invariant of the state alone that every enabled step keeps holds after every schedule. -/
theorem runSchedule_state_invariant (invariant : σ → Prop)
    (preserved
      : ∀ state label next, next ∈ step state label → invariant state → invariant next.1)
    {start : σ} (initial : invariant start) {labels : List ι} {reached : σ × List ω}
    (runs : reached ∈ runSchedule step start labels)
    : invariant reached.1 :=
  runSchedule_invariant (fun _ state => invariant state)
    (fun _ state label next enabled holds => preserved state label next enabled holds) initial runs

/-- A system follows another one through a relation of their states that every allowed step of the
other carries on: each of the other's schedules is one of its own, with the same history, by
induction on the schedule.
-/
theorem runSchedule_simulates {τ : Type*} {abstract : τ → ι → Option (τ × List ω)}
    {relates : σ → τ → Prop} (allowed : ι → Prop)
    (simulated
      : ∀ state model label later,
          allowed label
          → relates state model
          → later ∈ abstract model label
          → ∃ next ∈ step state label, next.2 = later.2 ∧ relates next.1 later.1)
    {start : σ} {model : τ} (initially : relates start model) {labels : List ι}
    (all : ∀ label ∈ labels, allowed label) {reached : τ × List ω}
    (runs : reached ∈ runSchedule abstract model labels)
    : ∃ final ∈ runSchedule step start labels,
        final.2 = reached.2 ∧ relates final.1 reached.1 := by
  induction labels generalizing start model reached with
  | nil =>
      obtain rfl : (model, []) = reached := by simpa using runs
      exact ⟨(start, []), by simp, rfl, initially⟩
  | cons label rest ih =>
      obtain ⟨later, enabled, last, remaining, rfl⟩ := mem_runSchedule_cons.mp runs
      obtain ⟨next, follows, same, kept⟩ :=
        simulated start model label later (all label (by simp)) initially enabled
      obtain ⟨final, continues, equal, ends⟩ :=
        ih kept (fun other member => all other (by simp [member])) remaining
      refine ⟨(final.1, next.2 ++ final.2), mem_runSchedule_cons.mpr ⟨next, follows, final, continues,
        rfl⟩, ?_, ends⟩
      rw [same, equal]

end Schedules

section Linearizability

/-- What the threads of a system let others observe of a shared object: a call begins, takes
effect, returns.
-/
inductive Observation (θ ο ε ρ : Type*) where
  | called (thread : θ) (operation : ο)
  | took (thread : θ) (effect : ε)
  | returned (thread : θ) (result : ρ)
deriving DecidableEq, Repr

/-- How far a thread is with its current call: it has none, its call has not taken effect, or its
call took effect and will return.
-/
inductive CallPhase (ο ε : Type*) where
  | idle
  | pending (operation : ο)
  | done (effect : ε)
deriving DecidableEq, Repr

variable {α θ ο ε ρ : Type*}

/-- The thread that an observation is about. -/
def Observation.thread : Observation θ ο ε ρ → θ
  | .called thread _ => thread
  | .took thread _ => thread
  | .returned thread _ => thread

/-- The effect that an observation reports, with its thread. -/
def Observation.effect? : Observation θ ο ε ρ → Option (θ × ε)
  | .called _ _ => none
  | .took thread effect => some (thread, effect)
  | .returned _ _ => none

/-- The sequential meaning of a shared object: what an effect does to its state (`none` where it
cannot happen), which effects an operation may have, and what a call with that effect returns.
-/
structure ObjectSpec (α θ ο ε ρ : Type*) where
  apply : α → θ × ε → Option α
  fits : ο → ε → Prop
  answer : ε → ρ

variable (spec : ObjectSpec α θ ο ε ρ)

/-- One observation of a thread moves its phase: a call begins only in `idle`, has one effect that
fits it, and returns the answer of that effect.
-/
inductive ObjectSpec.Follows
    : CallPhase ο ε → Observation θ ο ε ρ → CallPhase ο ε → Prop where
  | called (thread : θ) (operation : ο)
      : Follows .idle (.called thread operation) (.pending operation)
  | took (thread : θ) {operation : ο} {effect : ε} (fits : spec.fits operation effect)
      : Follows (.pending operation) (.took thread effect) (.done effect)
  | returned (thread : θ) (effect : ε)
      : Follows (.done effect) (.returned thread (spec.answer effect)) .idle

/-- A thread's observations lead from one phase to another. -/
inductive ObjectSpec.Calls
    : CallPhase ο ε → List (Observation θ ο ε ρ) → CallPhase ο ε → Prop where
  | nil (phase : CallPhase ο ε) : Calls phase [] phase
  | snoc {start phase next : CallPhase ο ε} {earlier : List (Observation θ ο ε ρ)}
      {observation : Observation θ ο ε ρ} (calls : Calls start earlier phase)
      (follows : spec.Follows phase observation next)
      : Calls start (earlier ++ [observation]) next

variable [DecidableEq θ]

/-- The history is linearizable: the effects, in the order in which they happened, are a legal
sequential run of the object that ends in its present state, and every thread's calls each have
exactly one effect between their beginning and their return, which decides what they return.
-/
structure ObjectSpec.Linearized (initial : α) (history : List (Observation θ ο ε ρ))
    (phases : θ → CallPhase ο ε) (present : α)
    : Prop where
  legal : (history.filterMap Observation.effect?).foldlM spec.apply initial = some present
  threads
    : ∀ thread,
        spec.Calls .idle (history.filter fun observation => observation.thread = thread)
          (phases thread)

variable {spec} {initial present : α} {history : List (Observation θ ο ε ρ)}
variable {phases later : θ → CallPhase ο ε}

/-- A system that has not moved is linearized. -/
theorem ObjectSpec.Linearized.start (idle : ∀ thread, phases thread = .idle)
    : spec.Linearized initial [] phases initial :=
  ⟨rfl, fun thread => by rw [idle]; exact .nil _⟩

/-- A step without observations that keeps every thread's phase keeps linearizability. -/
theorem ObjectSpec.Linearized.silent (linearized : spec.Linearized initial history phases present)
    (same : ∀ thread, later thread = phases thread)
    : spec.Linearized initial (history ++ []) later present := by
  obtain rfl : later = phases := funext same
  simpa using linearized

/-- One observation of a thread that its phase follows keeps the threads' part, by splitting on
whether a thread is the observed one.
-/
theorem ObjectSpec.Linearized.observe_threads
    (linearized : spec.Linearized initial history phases present)
    (observation : Observation θ ο ε ρ)
    (follows : spec.Follows (phases observation.thread) observation (later observation.thread))
    (others : ∀ thread, thread ≠ observation.thread → later thread = phases thread) (thread : θ)
    : spec.Calls .idle
        ((history ++ [observation]).filter fun observation => observation.thread = thread)
        (later thread) := by
  rw [List.filter_append]
  by_cases same : observation.thread = thread
  · subst same
    simpa using (linearized.threads observation.thread).snoc follows
  · rw [others thread (Ne.symm same)]
    simpa [same] using linearized.threads thread

/-- An observation that is not an effect keeps linearizability when the thread's phase follows. -/
theorem ObjectSpec.Linearized.observe
    (linearized : spec.Linearized initial history phases present)
    {observation : Observation θ ο ε ρ} (noEffect : observation.effect? = none)
    (follows : spec.Follows (phases observation.thread) observation (later observation.thread))
    (others : ∀ thread, thread ≠ observation.thread → later thread = phases thread)
    : spec.Linearized initial (history ++ [observation]) later present where
  legal := by simpa [List.filterMap_append, noEffect] using linearized.legal
  threads := linearized.observe_threads observation follows others

/-- An effect that the object's state allows keeps linearizability and moves that state. -/
theorem ObjectSpec.Linearized.take
    (linearized : spec.Linearized initial history phases present) {thread : θ} {effect : ε}
    (operation : ο) {next : α} (applies : spec.apply present (thread, effect) = some next)
    (pending : phases thread = .pending operation) (fits : spec.fits operation effect)
    (done : later thread = .done effect)
    (others : ∀ other, other ≠ thread → later other = phases other)
    : spec.Linearized initial (history ++ [.took thread effect]) later next where
  legal := by
    simp [List.filterMap_append, Observation.effect?, List.foldlM_append, linearized.legal, applies]
  threads := by
    refine linearized.observe_threads (.took thread effect) ?_ others
    change spec.Follows (phases thread) _ (later thread)
    rw [pending, done]
    exact .took thread fits

end Linearizability

end RtcBase.Library

import Mathlib.Data.List.Basic

/-! Finite runs of a deterministic step function, and the rules that carry invariants
and per-step conditions along them.
-/

namespace RtcBase.Library

variable {σ ι : Type*}

/-- The state reached by feeding every input to the step function in turn. -/
def runFrom (step : σ → ι → σ) (start : σ) (inputs : List ι) : σ :=
  inputs.foldl step start

/-- Every step of the run meets `guard`, judged on the state that the step starts from. -/
def Along (step : σ → ι → σ) (guard : σ → ι → Prop) : σ → List ι → Prop
  | _, [] => True
  | state, input :: rest => guard state input ∧ Along step guard (step state input) rest

variable {step : σ → ι → σ} {guard : σ → ι → Prop}

instance decidableAlong [∀ state input, Decidable (guard state input)]
    : (start : σ) → (inputs : List ι) → Decidable (Along step guard start inputs)
  | _, [] => isTrue trivial
  | start, input :: rest =>
      have := decidableAlong (step start input) rest
      inferInstanceAs (Decidable (guard start input ∧ Along step guard (step start input) rest))

@[simp] theorem runFrom_nil (start : σ) : runFrom step start [] = start := rfl

@[simp] theorem runFrom_cons (start : σ) (input : ι) (rest : List ι)
    : runFrom step start (input :: rest) = runFrom step (step start input) rest := rfl

/-- Collecting the inputs of a run appends them, by induction on the inputs. -/
theorem runFrom_collect (earlier inputs : List ι)
    : runFrom (fun seen input => seen ++ [input]) earlier inputs = earlier ++ inputs := by
  induction inputs generalizing earlier with
  | nil => simp
  | cons input rest ih => rw [runFrom_cons, ih, List.append_assoc, List.singleton_append]

@[simp] theorem along_nil (start : σ) : Along step guard start [] := trivial

@[simp] theorem along_cons (start : σ) (input : ι) (rest : List ι)
    : Along step guard start (input :: rest)
      ↔ guard start input ∧ Along step guard (step start input) rest := Iff.rfl

/-- A guard that every input meets in every state holds along the run, by induction on the
inputs.
-/
theorem along_of_forall_mem {inputs : List ι}
    (always : ∀ input ∈ inputs, ∀ state, guard state input) (start : σ)
    : Along step guard start inputs := by
  induction inputs generalizing start with
  | nil => trivial
  | cons input rest ih =>
      exact ⟨always input (by simp) start,
        ih (fun later member => always later (by simp [member])) (step start input)⟩

/-- A guard that follows from another one and an invariant holds along the same runs, by induction
on the inputs.
-/
theorem Along.imp {invariant : σ → Prop} {other : σ → ι → Prop} {start : σ} {inputs : List ι}
    (h : Along step guard start inputs) (initial : invariant start)
    (preserved
      : ∀ state input, invariant state → guard state input → invariant (step state input))
    (weaker : ∀ state input, invariant state → guard state input → other state input)
    : Along step other start inputs := by
  induction inputs generalizing start with
  | nil => trivial
  | cons input rest ih =>
      exact ⟨weaker start input initial h.1, ih h.2 (preserved start input initial h.1)⟩

/-- A guard holds along two runs in turn when it holds along each, by induction on the first
one's inputs.
-/
theorem along_append (start : σ) (first second : List ι)
    : Along step guard start (first ++ second)
      ↔ Along step guard start first ∧ Along step guard (runFrom step start first) second := by
  induction first generalizing start with
  | nil => simp
  | cons input rest ih => simp [ih, and_assoc]

/-- A property holds in every state that a run passes through exactly when it holds at the start
and each step leads to it, by induction on the inputs.
-/
theorem forall_prefix_iff_along {property : σ → Prop} (start : σ) (inputs : List ι)
    : (∀ reached, reached <+: inputs → property (runFrom step start reached))
      ↔ property start
        ∧ Along step (fun state input => property (step state input)) start inputs := by
  induction inputs generalizing start with
  | nil => simp
  | cons input rest ih =>
      rw [along_cons]
      constructor
      · intro always
        refine ⟨always [] (List.nil_prefix), always [input] ⟨rest, rfl⟩, ?_⟩
        have later := (ih (step start input)).mp (fun reached isPrefix =>
          always (input :: reached) (List.cons_prefix_cons.mpr ⟨rfl, isPrefix⟩))
        exact later.2
      · intro ⟨initial, next, along⟩ reached isPrefix
        cases reached with
        | nil => exact initial
        | cons first others =>
            obtain ⟨rfl, shorter⟩ := List.cons_prefix_cons.mp isPrefix
            exact (ih (step start first)).mpr ⟨next, along⟩ others shorter

/-- A run agrees with a run of another step function, through a view of its states, after every
input exactly when each of its steps does, by induction on the inputs.
-/
theorem forall_prefix_view_iff_along {τ : Type*} {view : σ → τ} {abstract : τ → ι → τ} (start : σ)
    (inputs : List ι)
    : (∀ reached, reached <+: inputs
        → view (runFrom step start reached) = runFrom abstract (view start) reached)
      ↔ Along step (fun state input => view (step state input) = abstract (view state) input) start
          inputs := by
  induction inputs generalizing start with
  | nil => simp
  | cons input rest ih =>
      rw [along_cons, ← ih (step start input)]
      constructor
      · intro always
        have next : view (step start input) = abstract (view start) input :=
          always [input] ⟨rest, rfl⟩
        refine ⟨next, ?_⟩
        intro reached isPrefix
        have later := always (input :: reached) (List.cons_prefix_cons.mpr ⟨rfl, isPrefix⟩)
        rwa [runFrom_cons, runFrom_cons, ← next] at later
      · intro ⟨next, along⟩ reached isPrefix
        cases reached with
        | nil => rfl
        | cons first others =>
            obtain ⟨rfl, shorter⟩ := List.cons_prefix_cons.mp isPrefix
            rw [runFrom_cons, runFrom_cons, ← next]
            exact along others shorter

/-- Two guards met along a run are met together, by induction on the inputs. -/
theorem along_and {other : σ → ι → Prop} {start : σ} {inputs : List ι}
    (first : Along step guard start inputs) (second : Along step other start inputs)
    : Along step (fun state input => guard state input ∧ other state input) start inputs := by
  induction inputs generalizing start with
  | nil => trivial
  | cons input rest ih => exact ⟨⟨first.1, second.1⟩, ih first.2 second.2⟩

/-- An invariant kept by every guarded step holds at the end of every guarded run, by
induction on the inputs.
-/
theorem runFrom_invariant_along {invariant : σ → Prop}
    (preserved
      : ∀ state input, invariant state → guard state input → invariant (step state input))
    {start : σ} {inputs : List ι} (initial : invariant start)
    (along : Along step guard start inputs)
    : invariant (runFrom step start inputs) := by
  induction inputs generalizing start with
  | nil => exact initial
  | cons input rest ih => exact ih (preserved start input initial along.1) along.2

/-- An invariant kept by every step holds at the end of every run. -/
theorem runFrom_invariant {invariant : σ → Prop}
    (preserved : ∀ state input, invariant state → invariant (step state input))
    {start : σ} (initial : invariant start) (inputs : List ι)
    : invariant (runFrom step start inputs) :=
  have everywhere : Along step (fun _ _ => True) start inputs :=
    along_of_forall_mem (fun _ _ _ => trivial) start
  runFrom_invariant_along (fun state input holds _ => preserved state input holds) initial
    everywhere

/-- A property of the reached state that each step keeps exactly when it meets `guard` holds at
the end of a run if and only if it holds at the start and the whole run meets `guard`, by
induction on the inputs.
-/
theorem runFrom_iff_along {invariant good : σ → Prop} {allowed : σ → ι → Prop}
    (preserved
      : ∀ state input, invariant state → allowed state input → invariant (step state input))
    (splits
      : ∀ state input,
          invariant state
          → allowed state input
          → (good (step state input) ↔ good state ∧ guard state input))
    {start : σ} {inputs : List ι} (initial : invariant start)
    (along : Along step allowed start inputs)
    : good (runFrom step start inputs) ↔ good start ∧ Along step guard start inputs := by
  induction inputs generalizing start with
  | nil => exact (and_iff_left trivial).symm
  | cons input rest ih =>
      rw [runFrom_cons, ih (preserved start input initial along.1) along.2,
        splits start input initial along.1, and_assoc]
      rfl

/-- Two guards that agree wherever the invariant holds select the same runs, as long as steps
that meet the first keep the invariant, by induction on the inputs.
-/
theorem along_congr {invariant : σ → Prop} {other : σ → ι → Prop}
    (preserved
      : ∀ state input, invariant state → guard state input → invariant (step state input))
    (agree : ∀ state input, invariant state → (guard state input ↔ other state input))
    {start : σ} (initial : invariant start) (inputs : List ι)
    : Along step guard start inputs ↔ Along step other start inputs := by
  induction inputs generalizing start with
  | nil => exact Iff.rfl
  | cons input rest ih =>
      rw [along_cons, along_cons, ← agree start input initial]
      exact and_congr_right (fun met => ih (preserved start input initial met))

/-- The rule for a loop that can fail: when each round succeeds and carries the invariant to the
items done so far, the loop succeeds and ends with the invariant, by induction on the items that
remain.
-/
theorem foldlM_invariant {body : σ → ι → Option σ} {invariant : List ι → σ → Prop}
    {items : List ι} {start : σ}
    (initial : invariant [] start)
    (round
      : ∀ done item rest state,
          items = done ++ item :: rest
          → invariant done state
          → ∃ next, body state item = some next ∧ invariant (done ++ [item]) next)
    : ∃ final, items.foldlM body start = some final ∧ invariant items final := by
  have onward (done rest : List ι) (state : σ) (split : items = done ++ rest)
      (holds : invariant done state)
      : ∃ final, rest.foldlM body state = some final ∧ invariant items final := by
    induction rest generalizing done state with
    | nil => exact ⟨state, rfl, by simpa [split] using holds⟩
    | cons item rest ih =>
        obtain ⟨next, succeeds, kept⟩ := round done item rest state split holds
        obtain ⟨final, runs, ends⟩ := ih (done ++ [item]) next (by simp [split]) kept
        exact ⟨final, by rw [List.foldlM_cons, succeeds]; exact runs, ends⟩
  exact onward [] items start rfl initial

end RtcBase.Library

import RtcBase.Optionals.Optional

/-! Over every run of calls, `Optional`s behave as optional values: a value lives in the union exactly
while the optional has one, it is constructed and destroyed once, and nothing undefined happens.
-/

namespace RtcBase.Optionals

open Library

variable {α θ : Type}

/-- What a program knows of its `Optional`s: where there is one, and the value that it has. -/
abbrev Known (θ α : Type) := θ → Option (Option α)

section Specification

/-- The two optional values of a comparison, where a value counts as an optional value that is there,
and `nullopt` as none.
-/
def Known.sides (known : Known θ α) : Operands θ α → Option (Option α × Option α)
  | .optionals m1 m2 => do return (← known m1, ← known m2)
  | .optionalAndValue opt value => do return (← known opt, some value)
  | .valueAndOptional value opt => do return (some value, ← known opt)
  | .nullopt opt => do return (← known opt, none)

variable [DecidableEq θ] [BEq α] (moves : Moves α)

/-- What a call means. A constructor needs free memory, any other call an `Optional`, and a value is
used only where there is one.
-/
def Known.step (known : Known θ α) : Call θ α → Option (Known θ α × List (Answer α))
  | .construct place =>
      if (known place).isNone then some (Function.update known place (some none), []) else none
  | .constructValue place value =>
      if (known place).isNone then some (Function.update known place (some (some value)), [])
      else none
  | .constructCopy place m => do
      let source ← known m
      if (known place).isNone then some (Function.update known place (some source), []) else none
  | .constructMove place m => do
      let source ← known m
      if (known place).isNone then
        some (Function.update (Function.update known place (some source)) m
          (some (source.map moves.movedFrom)), [])
      else none
  | .destroy place => do
      let _ ← known place
      return (Function.update known place none, [])
  | .reset place => do
      let _ ← known place
      return (Function.update known place (some none), [])
  | .assignCopy place m => do
      let _ ← known place
      let source ← known m
      return (Function.update known place (some source), [])
  | .assignMove place m => do
      let _ ← known place
      let source ← known m
      if place = m then
        return (Function.update known place (some (source.map moves.selfMoved)), [])
      else
        return (Function.update (Function.update known place (some source)) m
          (some (source.map moves.movedFrom)), [])
  | .swap m1 m2 => do
      let first ← known m1
      let second ← known m2
      return (Function.update (Function.update known m1 (some second)) m2 (some first), [])
  | .emplace place value => do
      let _ ← known place
      return (Function.update known place (some (some value)), [])
  | .hasValue place => do
      let self ← known place
      return (known, [.flag self.isSome])
  | .value place => do
      let self ← known place
      return (known, [.value (← self)])
  | .assignValue place value => do
      let self ← known place
      let _ ← self
      return (Function.update known place (some (some value)), [])
  | .moveValue place => do
      let self ← known place
      let value ← self
      return (Function.update known place (some (some (moves.movedFrom value))), [.value value])
  | .valueOr place defaultVal => do
      let self ← known place
      return (known, [.value (self.getD defaultVal)])
  | .pointer place => do
      let self ← known place
      return (known, [.pointer self])
  | .equal operands => do
      let (first, second) ← known.sides operands
      return (known, [.flag (first == second)])
  | .notEqual operands => do
      let (first, second) ← known.sides operands
      return (known, [.flag (first != second)])

end Specification

/-- The memory shows what the program knows of it: the flag says whether there is a value, the value
lives in the union, it is poisoned exactly in an empty `Optional`, and each value that was
constructed there was destroyed, but for the one that is.
-/
structure Shows (storage : Storage α) (slot : Option (Option α)) : Prop where
  alive : storage.alive = slot.isSome
  flag : slot.isSome = true → storage.hasValue = slot.join.isSome
  value : storage.value = slot.join
  poisoned : storage.poisoned = (slot.isSome && slot.join.isNone)
  balance : storage.constructed = storage.destroyed + storage.value.isSome.toNat

section Operations

variable {storage : Storage α} {self : Option α} {old : α}

/-- What is read is what is known, and of an empty `Optional` it is undefined. -/
theorem Shows.readValue (holds : Shows storage (some self)) : storage.readValue = self := by
  cases self <;> simp [Storage.readValue, holds.poisoned, holds.value]

theorem Shows.hasValue (holds : Shows storage (some self)) : storage.hasValue = self.isSome := by
  simpa using holds.flag rfl

theorem Shows.construct (holds : Shows storage none) : Shows storage.construct (some none) := by
  have none_ := holds.value
  have balance := holds.balance
  constructor <;> simp_all [Storage.construct, Storage.setHasValue, Storage.poisonValue]

theorem Shows.newValue (holds : Shows storage none) (value : α)
    : ∃ next,
        ({ storage with alive := true }.setHasValue true).newValue value = some next
        ∧ Shows next (some (some value)) := by
  have none_ := holds.value
  have clean := holds.poisoned
  have balance := holds.balance
  refine ⟨{ storage with
    alive := true, hasValue := true, value := some value
    constructed := storage.constructed + 1 }, ?_, ?_⟩
  · simp_all [Storage.newValue, Storage.setHasValue]
  · constructor <;> simp_all

theorem Shows.setValue (holds : Shows storage (some (some old))) (value : α)
    : ∃ next, storage.setValue value = some next ∧ Shows next (some (some value)) := by
  have is := holds.value
  have clean := holds.poisoned
  have alive := holds.alive
  have flag := holds.hasValue
  have balance := holds.balance
  refine ⟨{ storage with value := some value }, ?_, ?_⟩
  · simp_all [Storage.setValue]
  · constructor <;> simp_all

theorem Shows.fill (holds : Shows storage (some none)) (value : α)
    : ∃ next, storage.fill value = some next ∧ Shows next (some (some value)) := by
  have none_ := holds.value
  have alive := holds.alive
  have balance := holds.balance
  refine ⟨{ storage with
    hasValue := true, value := some value, poisoned := false
    constructed := storage.constructed + 1 }, ?_, ?_⟩
  · simp_all [Storage.fill, Storage.unpoisonValue, Storage.newValue, Storage.setHasValue]
  · constructor <;> simp_all

theorem Shows.assign (holds : Shows storage (some self)) (value : α)
    : ∃ next, storage.assign value = some next ∧ Shows next (some (some value)) := by
  cases self with
  | none =>
      obtain ⟨next, fills, shown⟩ := holds.fill value
      exact ⟨next, by simpa [Storage.assign, holds.hasValue] using fills, shown⟩
  | some old =>
      obtain ⟨next, sets, shown⟩ := holds.setValue value
      exact ⟨next, by simpa [Storage.assign, holds.hasValue] using sets, shown⟩

theorem Shows.vacate (holds : Shows storage (some (some old)))
    : ∃ next, storage.vacate = some next ∧ Shows next (some none) := by
  have is := holds.value
  have clean := holds.poisoned
  have alive := holds.alive
  have balance := holds.balance
  refine ⟨{ storage with
    hasValue := false, value := none, poisoned := true
    destroyed := storage.destroyed + 1 }, ?_, ?_⟩
  · simp_all [Storage.vacate, Storage.destroyValue, Storage.setHasValue, Storage.poisonValue]
  · constructor <;> simp_all

theorem Shows.reset (holds : Shows storage (some self))
    : ∃ next, storage.reset = some next ∧ Shows next (some none) := by
  cases self with
  | none => exact ⟨storage, by simp [Storage.reset, holds.hasValue], holds⟩
  | some old =>
      obtain ⟨next, vacates, shown⟩ := holds.vacate
      exact ⟨next, by simpa [Storage.reset, holds.hasValue, Storage.vacate] using vacates, shown⟩

theorem Shows.destroy (holds : Shows storage (some self))
    : ∃ next, storage.destroy = some next ∧ Shows next none := by
  have is := holds.value
  have clean := holds.poisoned
  have flag := holds.hasValue
  have balance := holds.balance
  cases self with
  | none =>
      refine ⟨{ storage with alive := false, poisoned := false }, ?_, ?_⟩
      · simp_all [Storage.destroy, Storage.unpoisonValue]
      · constructor <;> simp_all
  | some old =>
      refine ⟨{ storage with
        alive := false, value := none, destroyed := storage.destroyed + 1 }, ?_, ?_⟩
      · simp_all [Storage.destroy, Storage.destroyValue]
      · constructor <;> simp_all

theorem Shows.emplace (holds : Shows storage (some self)) (value : α)
    : ∃ next, storage.emplace value = some next ∧ Shows next (some (some value)) := by
  have is := holds.value
  have clean := holds.poisoned
  have alive := holds.alive
  have flag := holds.hasValue
  have balance := holds.balance
  cases self with
  | none =>
      refine ⟨{ storage with
        hasValue := true, value := some value, poisoned := false
        constructed := storage.constructed + 1 }, ?_, ?_⟩
      · simp_all [Storage.emplace, Storage.unpoisonValue, Storage.newValue, Storage.setHasValue]
      · constructor <;> simp_all
  | some old =>
      refine ⟨{ storage with
        hasValue := true, value := some value, destroyed := storage.destroyed + 1
        constructed := storage.constructed + 1 }, ?_, ?_⟩
      · simp_all [Storage.emplace, Storage.destroyValue, Storage.newValue, Storage.setHasValue]
      · constructor <;> simp_all

end Operations

-----------------------------------------------------------------------------------------
-- Runs
-----------------------------------------------------------------------------------------

/-- All memory shows what the program knows. -/
def Represents (memory : Memory θ α) (known : Known θ α) : Prop :=
  ∀ place, Shows (memory place) (known place)

section Runs

variable [DecidableEq θ] {memory : Memory θ α} {known : Known θ α} {place m : θ}

/-- One place changes in memory as in what is known. -/
theorem Represents.update (represents : Represents memory known) {storage : Storage α}
    {slot : Option (Option α)} (holds : Shows storage slot)
    : Represents (Function.update memory place storage) (Function.update known place slot) := by
  intro other
  by_cases same : other = place
  · subst same
    simpa using holds
  · simpa [same] using represents other

omit [DecidableEq θ] in
/-- What is known of one place holds of its memory. -/
theorem Represents.shows {slot : Option (Option α)} (represents : Represents memory known)
    (is : known place = slot)
    : Shows (memory place) slot :=
  is ▸ represents place

variable {moves : Moves α} {self source : Option α}

/-- A copy into free memory. -/
theorem Represents.constructCopy (represents : Represents memory known) (free : known place = none)
    (is : known m = some source)
    : ∃ next,
        Optionals.constructCopy memory place m = some next
        ∧ Represents next (Function.update known place (some source)) := by
  have given := represents.shows is
  have into := represents.shows free
  cases source with
  | none =>
      refine ⟨_, ?_, represents.update into.construct⟩
      simp [Optionals.constructCopy, given.hasValue, Storage.setHasValue, Storage.construct]
  | some value =>
      obtain ⟨next, creates, shown⟩ := into.newValue value
      refine ⟨_, ?_, represents.update shown⟩
      simp only [Storage.setHasValue] at creates
      simp [Optionals.constructCopy, given.hasValue, given.readValue, creates, Storage.setHasValue]

variable (moves) in
/-- A move into free memory. -/
theorem Represents.constructMove (represents : Represents memory known) (free : known place = none)
    (is : known m = some source)
    : ∃ next,
        Optionals.constructMove moves memory place m = some next
        ∧ Represents next
            (Function.update (Function.update known place (some source)) m
              (some (source.map moves.movedFrom))) := by
  have given := represents.shows is
  have into := represents.shows free
  cases source with
  | none =>
      have unchanged
          : Function.update (Function.update known place (some none)) m
              (some ((none : Option α).map moves.movedFrom))
            = Function.update known place (some none) := by
        rw [Function.update_eq_self_iff, Option.map_none]
        by_cases same : m = place
        · simp [same]
        · simp [same, is]
      rw [unchanged]
      refine ⟨_, ?_, represents.update into.construct⟩
      simp [Optionals.constructMove, given.hasValue, Storage.setHasValue, Storage.construct]
  | some value =>
      obtain ⟨next, creates, shown⟩ := into.newValue value
      obtain ⟨left, leaves, leftShown⟩ := given.setValue (moves.movedFrom value)
      refine ⟨_, ?_, (represents.update shown).update leftShown⟩
      simp only [Storage.setHasValue] at creates
      simp [Optionals.constructMove, given.hasValue, given.readValue, creates, leaves,
        Storage.setHasValue]

/-- Copy assignment, also to itself. -/
theorem Represents.assignCopy (represents : Represents memory known)
    (has : known place = some self) (is : known m = some source)
    : ∃ next,
        Optionals.assignCopy memory place m = some next
        ∧ Represents next (Function.update known place (some source)) := by
  have given := represents.shows is
  have into := represents.shows has
  cases source with
  | none =>
      obtain ⟨next, resets, shown⟩ := into.reset
      refine ⟨_, ?_, represents.update shown⟩
      simp [Optionals.assignCopy, given.hasValue, resets]
  | some value =>
      obtain ⟨next, assigns, shown⟩ := into.assign value
      refine ⟨_, ?_, represents.update shown⟩
      simp [Optionals.assignCopy, given.hasValue, given.readValue, assigns]

variable (moves) in
/-- Move assignment, also to itself. -/
theorem Represents.assignMove (represents : Represents memory known)
    (has : known place = some self) (is : known m = some source)
    : ∃ next,
        Optionals.assignMove moves memory place m = some next
        ∧ Represents next
            (if place = m then Function.update known place (some (source.map moves.selfMoved))
            else
              Function.update (Function.update known place (some source)) m
                (some (source.map moves.movedFrom))) := by
  have given := represents.shows is
  have into := represents.shows has
  cases source with
  | none =>
      obtain ⟨next, resets, shown⟩ := into.reset
      have unchanged
          : (if place = m then
              Function.update known place (some ((none : Option α).map moves.selfMoved))
            else
              Function.update (Function.update known place (some none)) m
                (some ((none : Option α).map moves.movedFrom)))
            = Function.update known place (some none) := by
        split_ifs with same
        · rfl
        · rw [Function.update_eq_self_iff, Option.map_none]
          simp [Ne.symm same, is]
      rw [unchanged]
      refine ⟨_, ?_, represents.update shown⟩
      simp [Optionals.assignMove, given.hasValue, resets]
  | some value =>
      by_cases same : place = m
      · subst same
        obtain ⟨next, sets, shown⟩ := given.setValue (moves.selfMoved value)
        rw [if_pos rfl]
        refine ⟨_, ?_, represents.update shown⟩
        simp [Optionals.assignMove, given.hasValue, given.readValue, sets]
      · obtain ⟨next, assigns, shown⟩ := into.assign value
        obtain ⟨left, leaves, leftShown⟩ := given.setValue (moves.movedFrom value)
        rw [if_neg same]
        refine ⟨_, ?_, (represents.update shown).update leftShown⟩
        simp [Optionals.assignMove, given.hasValue, given.readValue, same, assigns, leaves]

variable (moves) in
/-- The value of one `Optional` goes to another one that is empty. -/
theorem Represents.swapInto (represents : Represents memory known) {value : α}
    (has : known place = some (some value)) (empty : known m = some none)
    : ∃ next,
        Optionals.swapInto moves memory place m = some next
        ∧ Represents next
            (Function.update (Function.update known m (some (some value))) place (some none)) := by
  have given := represents.shows has
  have into := represents.shows empty
  obtain ⟨second, fills, filled⟩ := into.fill value
  obtain ⟨husk, leaves, left⟩ := given.setValue (moves.movedFrom value)
  obtain ⟨first, vacates, vacated⟩ := left.vacate
  refine ⟨_, ?_, (represents.update filled).update vacated⟩
  simp [Optionals.swapInto, given.readValue, fills, leaves, vacates]

variable (moves) in
/-- `swap` exchanges what two `Optional`s have, also of one with itself. -/
theorem Represents.swap (represents : Represents memory known) {first second : Option α}
    (one : known place = some first) (two : known m = some second)
    : ∃ next,
        Optionals.swap moves memory place m = some next
        ∧ Represents next
            (Function.update (Function.update known place (some second)) m (some first)) := by
  have oneHolds := represents.shows one
  have twoHolds := represents.shows two
  cases first with
  | none =>
      cases second with
      | none =>
          have unchanged
              : Function.update (Function.update known place (some none)) m (some none)
                = known := by
            rw [← one, Function.update_eq_self, one, ← two, Function.update_eq_self]
          rw [unchanged]
          exact ⟨memory, by simp [Optionals.swap, oneHolds.hasValue, twoHolds.hasValue], represents⟩
      | some value2 =>
          obtain ⟨next, swaps, shown⟩ := represents.swapInto moves two one
          refine ⟨next, by simp [Optionals.swap, oneHolds.hasValue, twoHolds.hasValue, swaps], ?_⟩
          exact shown
  | some value1 =>
      cases second with
      | none =>
          obtain ⟨next, swaps, shown⟩ := represents.swapInto moves one two
          refine ⟨next, by simp [Optionals.swap, oneHolds.hasValue, twoHolds.hasValue, swaps], ?_⟩
          have different : m ≠ place := by
            rintro rfl
            rw [one] at two
            cases two
          rwa [Function.update_comm different.symm]
      | some value2 =>
          obtain ⟨left, sets, shown⟩ := oneHolds.setValue value2
          have after
              : Represents (Function.update memory place left)
                  (Function.update known place (some (some value2))) := represents.update shown
          have second : Function.update known place (some (some value2)) m = some (some value2) := by
            by_cases same : m = place
            · simp [same]
            · simp [same, two]
          obtain ⟨right, setsBack, shownBack⟩ := (after.shows second).setValue value1
          refine ⟨_, ?_, after.update shownBack⟩
          simp [Optionals.swap, oneHolds.hasValue, twoHolds.hasValue, oneHolds.readValue,
            twoHolds.readValue, sets, setsBack]

variable [BEq α]

omit [DecidableEq θ] in
/-- Every overload of `operator==` compares what is known. -/
theorem Represents.equal (represents : Represents memory known) {operands : Operands θ α}
    {first second : Option α} (sides : known.sides operands = some (first, second))
    : memory.equal operands = some (first == second) := by
  cases operands with
  | optionals m1 m2 =>
      obtain ⟨one, two⟩ : known m1 = some first ∧ known m2 = some second := by
        simpa [Known.sides, Option.bind_eq_some_iff] using sides
      have oneHolds := represents.shows one
      have twoHolds := represents.shows two
      simp only [Memory.equal, Storage.equal, oneHolds.hasValue, twoHolds.hasValue,
        oneHolds.readValue, twoHolds.readValue]
      cases first <;> cases second <;> simp
  | optionalAndValue opt value =>
      obtain ⟨is, rfl⟩ : known opt = some first ∧ some value = second := by
        simpa [Known.sides, Option.bind_eq_some_iff] using sides
      have holds := represents.shows is
      simp only [Memory.equal, Storage.equalValue, holds.hasValue, holds.readValue]
      cases first <;> simp
  | valueAndOptional value opt =>
      obtain ⟨is, rfl⟩ : known opt = some second ∧ some value = first := by
        simpa [Known.sides, Option.bind_eq_some_iff, and_comm] using sides
      have holds := represents.shows is
      simp only [Memory.equal, Storage.valueEqual, holds.hasValue, holds.readValue]
      cases second <;> simp
  | nullopt opt =>
      obtain ⟨is, rfl⟩ : known opt = some first ∧ none = second := by
        simpa [Known.sides, Option.bind_eq_some_iff] using sides
      have holds := represents.shows is
      simp only [Memory.equal, Storage.equalNullopt, holds.hasValue]
      cases first <;> simp

omit [DecidableEq θ] in
/-- Every overload of `operator!=` is the negation of the `operator==` of its operands, whatever the
memory holds.
-/
theorem notEqual_eq_map_not (memory : Memory θ α) (operands : Operands θ α)
    : memory.notEqual operands = (memory.equal operands).map not := by
  cases operands with
  | optionals m1 m2 =>
      simp only [Memory.notEqual, Storage.notEqual, Memory.equal, Storage.equal]
      cases (memory m1).readValue <;> cases (memory m2).readValue <;> split <;> simp [bne]
  | optionalAndValue opt value =>
      simp only [Memory.notEqual, Storage.notEqualValue, Memory.equal, Storage.equalValue]
      cases (memory opt).hasValue <;> cases (memory opt).readValue <;> simp [bne]
  | valueAndOptional value opt =>
      simp only [Memory.notEqual, Storage.valueNotEqual, Memory.equal, Storage.valueEqual]
      cases (memory opt).hasValue <;> cases (memory opt).readValue <;> simp [bne]
  | nullopt opt =>
      simp [Memory.notEqual, Storage.notEqualNullopt, Memory.equal, Storage.equalNullopt]

/-- Every call does what it means, by cases on the call. -/
theorem step_simulates (memory : Memory θ α) (known : Known θ α) (call : Call θ α)
    (later : Known θ α × List (Answer α)) (represents : Represents memory known)
    (means : later ∈ known.step moves call)
    : ∃ next ∈ memory.step moves call, next.2 = later.2 ∧ Represents next.1 later.1 := by
  cases call with
  | construct place =>
      obtain ⟨free, rfl⟩
          : known place = none ∧ (Function.update known place (some none), []) = later := by
        simpa [Known.step] using means
      exact ⟨_, rfl, rfl, represents.update (represents.shows free).construct⟩
  | constructValue place value =>
      obtain ⟨free, rfl⟩
          : known place = none ∧ (Function.update known place (some (some value)), []) = later := by
        simpa [Known.step] using means
      obtain ⟨next, creates, shown⟩ := (represents.shows free).newValue value
      exact ⟨(Function.update memory place next, []),
        by simp [Memory.step, Storage.constructValue, creates], rfl, represents.update shown⟩
  | constructCopy place m =>
      obtain ⟨source, is, free, rfl⟩
          : ∃ source, known m = some source ∧ known place = none
              ∧ (Function.update known place (some source), []) = later := by
        simpa [Known.step, Option.bind_eq_some_iff] using means
      obtain ⟨next, creates, shown⟩ := represents.constructCopy free is
      exact ⟨(next, []), by simp [Memory.step, creates], rfl, shown⟩
  | constructMove place m =>
      obtain ⟨source, is, free, rfl⟩
          : ∃ source, known m = some source ∧ known place = none
              ∧ (Function.update (Function.update known place (some source)) m
                  (some (source.map moves.movedFrom)), []) = later := by
        simpa [Known.step, Option.bind_eq_some_iff] using means
      obtain ⟨next, creates, shown⟩ := represents.constructMove moves free is
      exact ⟨(next, []), by simp [Memory.step, creates], rfl, shown⟩
  | destroy place =>
      obtain ⟨self, has, rfl⟩
          : ∃ self, known place = some self ∧ (Function.update known place none, []) = later := by
        simpa [Known.step, Option.bind_eq_some_iff] using means
      obtain ⟨next, destroys, shown⟩ := (represents.shows has).destroy
      exact ⟨(Function.update memory place next, []), by simp [Memory.step, destroys], rfl,
        represents.update shown⟩
  | reset place =>
      obtain ⟨self, has, rfl⟩
          : ∃ self, known place = some self
              ∧ (Function.update known place (some none), []) = later := by
        simpa [Known.step, Option.bind_eq_some_iff] using means
      obtain ⟨next, resets, shown⟩ := (represents.shows has).reset
      exact ⟨(Function.update memory place next, []), by simp [Memory.step, resets], rfl,
        represents.update shown⟩
  | assignCopy place m =>
      obtain ⟨self, has, source, is, rfl⟩
          : ∃ self, known place = some self ∧ ∃ source, known m = some source
              ∧ (Function.update known place (some source), []) = later := by
        simpa [Known.step, Option.bind_eq_some_iff] using means
      obtain ⟨next, assigns, shown⟩ := represents.assignCopy has is
      exact ⟨(next, []), by simp [Memory.step, assigns], rfl, shown⟩
  | assignMove place m =>
      obtain ⟨self, has, source, is, rfl⟩
          : ∃ self, known place = some self ∧ ∃ source, known m = some source
              ∧ (if place = m then Function.update known place (some (source.map moves.selfMoved))
                else
                  Function.update (Function.update known place (some source)) m
                    (some (source.map moves.movedFrom)), [])
                = later := by
        simp only [Known.step, Option.bind_eq_bind, Option.mem_def, Option.bind_eq_some_iff] at means
        obtain ⟨self, has, source, is, ends⟩ := means
        refine ⟨self, has, source, is, ?_⟩
        split_ifs at ends ⊢ <;> exact Option.some.inj ends
      obtain ⟨next, assigns, shown⟩ := represents.assignMove moves has is
      exact ⟨(next, []), by simp [Memory.step, assigns], rfl, shown⟩
  | swap m1 m2 =>
      obtain ⟨first, one, second, two, rfl⟩
          : ∃ first, known m1 = some first ∧ ∃ second, known m2 = some second
              ∧ (Function.update (Function.update known m1 (some second)) m2 (some first), [])
                = later := by
        simpa [Known.step, Option.bind_eq_some_iff] using means
      obtain ⟨next, swaps, shown⟩ := represents.swap moves one two
      exact ⟨(next, []), by simp [Memory.step, swaps], rfl, shown⟩
  | emplace place value =>
      obtain ⟨self, has, rfl⟩
          : ∃ self, known place = some self
              ∧ (Function.update known place (some (some value)), []) = later := by
        simpa [Known.step, Option.bind_eq_some_iff] using means
      obtain ⟨next, emplaces, shown⟩ := (represents.shows has).emplace value
      exact ⟨(Function.update memory place next, []), by simp [Memory.step, emplaces], rfl,
        represents.update shown⟩
  | hasValue place =>
      obtain ⟨self, has, rfl⟩
          : ∃ self, known place = some self ∧ (known, [.flag self.isSome]) = later := by
        simpa [Known.step, Option.bind_eq_some_iff] using means
      exact ⟨_, rfl, by simp [(represents.shows has).hasValue], represents⟩
  | value place =>
      obtain ⟨value, has, rfl⟩
          : ∃ value, known place = some (some value) ∧ (known, [.value value]) = later := by
        simpa [Known.step, Option.bind_eq_some_iff] using means
      exact ⟨(memory, [.value value]),
        by simp [Memory.step, (represents.shows has).readValue], rfl, represents⟩
  | assignValue place value =>
      obtain ⟨⟨old, has⟩, rfl⟩
          : (∃ old, known place = some (some old))
              ∧ (Function.update known place (some (some value)), []) = later := by
        simpa [Known.step, Option.bind_eq_some_iff] using means
      obtain ⟨next, sets, shown⟩ := (represents.shows has).setValue value
      exact ⟨(Function.update memory place next, []), by simp [Memory.step, sets], rfl,
        represents.update shown⟩
  | moveValue place =>
      obtain ⟨value, has, rfl⟩
          : ∃ value, known place = some (some value)
              ∧ (Function.update known place (some (some (moves.movedFrom value))),
                  [.value value]) = later := by
        simpa [Known.step, Option.bind_eq_some_iff] using means
      obtain ⟨next, sets, shown⟩ := (represents.shows has).setValue (moves.movedFrom value)
      exact ⟨(Function.update memory place next, [.value value]),
        by simp [Memory.step, (represents.shows has).readValue, sets], rfl,
        represents.update shown⟩
  | valueOr place defaultVal =>
      obtain ⟨self, has, rfl⟩
          : ∃ self, known place = some self
              ∧ (known, [.value (self.getD defaultVal)]) = later := by
        simpa [Known.step, Option.bind_eq_some_iff] using means
      have holds := represents.shows has
      refine ⟨(memory, [.value (self.getD defaultVal)]), ?_, rfl, represents⟩
      cases self with
      | none => simp [Memory.step, Storage.valueOr, holds.hasValue]
      | some value => simp [Memory.step, Storage.valueOr, holds.hasValue, holds.readValue]
  | pointer place =>
      obtain ⟨self, has, rfl⟩
          : ∃ self, known place = some self ∧ (known, [.pointer self]) = later := by
        simpa [Known.step, Option.bind_eq_some_iff] using means
      have holds := represents.shows has
      refine ⟨(memory, [.pointer self]), ?_, rfl, represents⟩
      cases self <;> simp [Memory.step, Storage.pointer, holds.hasValue, holds.readValue]
  | equal operands =>
      obtain ⟨first, second, sides, rfl⟩
          : ∃ first second, known.sides operands = some (first, second)
              ∧ (known, [.flag (first == second)]) = later := by
        simpa [Known.step, Option.bind_eq_some_iff] using means
      exact ⟨(memory, [.flag (first == second)]),
        by simp [Memory.step, represents.equal sides], rfl, represents⟩
  | notEqual operands =>
      obtain ⟨first, second, sides, rfl⟩
          : ∃ first second, known.sides operands = some (first, second)
              ∧ (known, [.flag (first != second)]) = later := by
        simpa [Known.step, Option.bind_eq_some_iff] using means
      have differs : memory.notEqual operands = some (first != second) := by
        rw [notEqual_eq_map_not, represents.equal sides]
        rfl
      exact ⟨(memory, [.flag (first != second)]), by simp [Memory.step, differs], rfl, represents⟩

/-- Over every run of calls that make sense for optional values, on any number of `Optional`s and with
assignments, moves and swaps of one with itself: nothing undefined happens, every answer is the one
for optional values, a value lives in the union exactly while the flag says so, the memory is
poisoned exactly while an `Optional` there is empty, and every value that was constructed in a place
was destroyed once, but for the one that lives there.
-/
theorem optionals_manage_lifetimes (moves : Moves α) (flags : θ → Bool) {calls : List (Call θ α)}
    {reached : Known θ α × List (Answer α)}
    (runs : reached ∈ runSchedule (Known.step moves) (fun _ => none) calls)
    : ∃ final
        ∈ runSchedule (Memory.step moves) (fun place => Storage.fresh (flags place)) calls,
        final.2 = reached.2
        ∧ ∀ place,
            (final.1 place).alive = (reached.1 place).isSome
            ∧ ((final.1 place).alive = true
              → (final.1 place).hasValue = (final.1 place).value.isSome
                ∧ (final.1 place).poisoned = (final.1 place).value.isNone)
            ∧ (final.1 place).value = (reached.1 place).join
            ∧ (final.1 place).constructed
              = (final.1 place).destroyed + (final.1 place).value.isSome.toNat := by
  have initially
      : Represents (fun place => Storage.fresh (flags place)) ((fun _ => none) : Known θ α) := by
    intro place
    constructor <;> simp [Storage.fresh]
  obtain ⟨final, follows, same, represents⟩ :=
    runSchedule_simulates (fun _ => True)
      (fun memory known call later _ represents means =>
        step_simulates memory known call later represents means)
      initially (fun _ _ => trivial) runs
  refine ⟨final, follows, same, ?_⟩
  intro place
  have holds := represents place
  refine ⟨holds.alive, ?_, holds.value, holds.balance⟩
  intro alive
  have there : (reached.1 place).isSome = true := holds.alive ▸ alive
  exact ⟨by rw [holds.flag there, holds.value], by rw [holds.poisoned, there, holds.value]; simp⟩

end Runs

/-- Two `Optional`s exchange a number, one is moved to itself, both are compared, with each other and
with what they may have, and destroyed.
-/
def exchangeAndDestroy : List (Call Bool Nat) :=
  [.constructValue true 7, .construct false, .swap true false, .notEqual (.nullopt true),
    .assignCopy true false, .assignMove true true, .equal (.optionals true false),
    .equal (.valueAndOptional 7 true), .pointer true, .moveValue false, .reset true, .destroy true,
    .destroy false]

/-- Witness: every number that was constructed was destroyed. -/
theorem optionals_manage_lifetimes_exchangeAndDestroy
    : ∃ final
        ∈ runSchedule (Memory.step ⟨fun _ => 0, id⟩) (fun _ => Storage.fresh true)
            exchangeAndDestroy,
        final.2 = [.flag false, .flag true, .flag true, .pointer (some 7), .value 7]
        ∧ ∀ place, (final.1 place).constructed = (final.1 place).destroyed := by
  obtain ⟨reached, runs⟩ := Option.isSome_iff_exists.mp
    (show (runSchedule (Known.step ⟨fun _ => 0, id⟩) (fun _ => none) exchangeAndDestroy).isSome
      = true by decide)
  have observed
      : (runSchedule (Known.step ⟨fun _ => 0, id⟩) (fun _ => none) exchangeAndDestroy).map
          (fun reached => (reached.2, reached.1 true, reached.1 false))
        = some ([.flag false, .flag true, .flag true, .pointer (some 7), .value 7], none, none) := by
    decide
  rw [runs] at observed
  obtain ⟨answers, first, second⟩
      : reached.2 = [.flag false, .flag true, .flag true, .pointer (some 7), .value 7]
        ∧ reached.1 true = none ∧ reached.1 false = none := by
    simpa using observed
  obtain ⟨final, follows, same, places⟩ := optionals_manage_lifetimes _ (fun _ => true) runs
  refine ⟨final, follows, same.trans answers, ?_⟩
  intro place
  obtain ⟨-, -, value, balance⟩ := places place
  have gone : reached.1 place = none := by cases place <;> assumption
  rw [balance, value, gone]
  rfl

end RtcBase.Optionals

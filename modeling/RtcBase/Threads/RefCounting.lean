import RtcBase.Library.Interleaving
import Mathlib.Data.BitVec
import Mathlib.Data.List.Infix
import Mathlib.Tactic.Common

/-! The reference counter of `ref_counter.h` and the objects of `ref_counted_object.h` and
`ref_counted_base.h` that delete themselves, shared by threads that add, pass on and release
references in any interleaving.
-/

namespace RtcBase.Threads

open RtcBase.Library

inductive RefCountReleaseStatus where
  | kDroppedLastRef
  | kOtherRefsRemained
deriving DecidableEq, Repr

/-- `RefCounter`: a 32-bit counter, changed by atomic instructions that wrap around. -/
structure RefCounter where
  refCount : BitVec 32
deriving DecidableEq, Repr

namespace RefCounter

def incRef (counter : RefCounter) : RefCounter := ⟨counter.refCount + 1⟩

def decRef (counter : RefCounter) : RefCounter × RefCountReleaseStatus :=
  let decremented : RefCounter := ⟨counter.refCount - 1⟩
  (decremented,
    if decremented.refCount = 0 then .kDroppedLastRef else .kOtherRefsRemained)

def hasOneRef (counter : RefCounter) : Bool := counter.refCount == 1

end RefCounter

variable {θ : Type*}

/-- An object that counts its references, with the threads that use it. -/
structure RefCountedObject (θ : Type*) where
  refCount : RefCounter
  -- the thread that created the object and has not made its first reference yet
  creator : Option θ
  -- one entry for each reference, naming the thread that has it
  refs : List θ
  -- threads inside `release` whose decrement dropped the last reference, before `delete this`
  deleting : List θ
  -- how often the destructor ran
  deleted : Nat
deriving DecidableEq, Repr

namespace RefCountedObject

/-- What a thread gets back from a call. -/
inductive Answer (θ : Type*) where
  | released (thread : θ) (status : RefCountReleaseStatus)
  | oneRef (thread : θ) (answer : Bool)
deriving DecidableEq, Repr

/-- A new object in the hands of the thread that created it. -/
def create (creator : θ) : RefCountedObject θ where
  refCount := ⟨0⟩
  creator := some creator
  refs := []
  deleting := []
  deleted := 0

/-- The thread may call methods of the object: it has a reference, or it has just created it. -/
def Uses (object : RefCountedObject θ) (thread : θ) : Prop :=
  thread ∈ object.refs ∨ object.creator = some thread

instance decidableUses [DecidableEq θ] (object : RefCountedObject θ) (thread : θ)
    : Decidable (object.Uses thread) :=
  inferInstanceAs (Decidable (_ ∨ _))

variable [DecidableEq θ]

def addRef (object : RefCountedObject θ) (thread : θ) : RefCountedObject θ :=
  { object with
    refCount := object.refCount.incRef
    creator := if object.creator = some thread then none else object.creator
    refs := thread :: object.refs }

/-- The decrement of `release`, after which the thread has one reference less. -/
def release (object : RefCountedObject θ) (thread : θ)
    : RefCountedObject θ × List (Answer θ) :=
  let decremented := object.refCount.decRef
  let rest := { object with refCount := decremented.1, refs := object.refs.erase thread }
  if decremented.2 = .kDroppedLastRef then
    ({ rest with deleting := thread :: object.deleting }, [])
  else
    (rest, [.released thread decremented.2])

/-- The `delete this` of a release that dropped the last reference. -/
def deleteThis (object : RefCountedObject θ) (thread : θ)
    : RefCountedObject θ × List (Answer θ) :=
  ({ object with
      deleting := object.deleting.erase thread
      deleted := object.deleted + 1 },
    [.released thread .kDroppedLastRef])

def hasOneRef (object : RefCountedObject θ) : Bool := object.refCount.hasOneRef

/-- What threads do: call a method, finish a release, pass one of their references on. -/
inductive Label (θ : Type*) where
  | addRef (thread : θ)
  | release (thread : θ)
  | deleteThis (thread : θ)
  | hasOneRef (thread : θ)
  | give (thread receiver : θ)
deriving DecidableEq, Repr

/-- One step; threads call the object only through references that they have. -/
def step (object : RefCountedObject θ)
    : Label θ → Option (RefCountedObject θ × List (Answer θ))
  | .addRef thread => if object.Uses thread then some (object.addRef thread, []) else none
  | .release thread => if thread ∈ object.refs then some (object.release thread) else none
  | .deleteThis thread =>
      if thread ∈ object.deleting then some (object.deleteThis thread) else none
  | .hasOneRef thread =>
      if thread ∈ object.refs then some (object, [.oneRef thread object.hasOneRef]) else none
  | .give thread receiver =>
      if thread ∈ object.refs then
        some ({ object with refs := receiver :: object.refs.erase thread }, [])
      else
        none

section Lifetime

/-- The answer of a release that dropped the last reference. -/
def Answer.isLast : Answer θ → Bool
  | .released _ status => status = .kDroppedLastRef
  | .oneRef _ _ => false

/-- The object is new, in use, or without references and deleted or about to be. -/
inductive Stage (object : RefCountedObject θ) : Prop where
  | fresh (creator : object.creator.isSome = true) (refs : object.refs = [])
      (deleting : object.deleting = []) (deleted : object.deleted = 0)
  | shared (creator : object.creator = none) (refs : object.refs ≠ [])
      (deleting : object.deleting = []) (deleted : object.deleted = 0)
  | dropped (creator : object.creator = none) (refs : object.refs = [])
      (once : object.deleting.length + object.deleted = 1)

/-- What holds between any two steps: the counter counts the references and each destructor call
belongs to one release that reported the last reference.
-/
structure Counted (history : List (Answer θ)) (object : RefCountedObject θ) : Prop where
  counter : object.refCount = ⟨BitVec.ofNat 32 object.refs.length⟩
  stage : object.Stage
  reported : history.countP Answer.isLast = object.deleted

omit [DecidableEq θ] in
/-- Whoever can use the object finds it neither deleted nor about to be. -/
theorem Counted.uses {history : List (Answer θ)} {object : RefCountedObject θ}
    (counted : Counted history object) {thread : θ} (uses : object.Uses thread)
    : object.deleting = [] ∧ object.deleted = 0 := by
  cases counted.stage with
  | fresh _ _ deleting deleted => exact ⟨deleting, deleted⟩
  | shared _ _ deleting deleted => exact ⟨deleting, deleted⟩
  | dropped creator refs _ => simp [Uses, creator, refs] at uses

/-- A decrement drops the last reference exactly when there was one, within the counter's range. -/
theorem decRef_ofNat {count : Nat} (positive : 0 < count) (small : count < 2 ^ 32)
    : (RefCounter.mk (BitVec.ofNat 32 count)).decRef
      = (⟨BitVec.ofNat 32 (count - 1)⟩,
          if count = 1 then .kDroppedLastRef else .kOtherRefsRemained) := by
  have decremented : BitVec.ofNat 32 count - 1 = BitVec.ofNat 32 (count - 1) := by
    have one : (1 : BitVec 32).toNat = 1 := rfl
    apply BitVec.eq_of_toNat_eq
    simp only [BitVec.toNat_sub, BitVec.toNat_ofNat, one]
    omega
  have zero : BitVec.ofNat 32 (count - 1) = 0 ↔ count = 1 := by
    have none : (0 : BitVec 32).toNat = 0 := rfl
    rw [← BitVec.toNat_inj]
    simp only [BitVec.toNat_ofNat, none]
    omega
  simp only [RefCounter.decRef, decremented, zero]

/-- Making a reference keeps the count. -/
theorem Counted.addRef {history : List (Answer θ)} {object : RefCountedObject θ}
    (counted : Counted history object) {thread : θ} (uses : object.Uses thread)
    : Counted history (object.addRef thread) := by
  obtain ⟨deleting, deleted⟩ := counted.uses uses
  refine ⟨?_, .shared ?_ (by simp [RefCountedObject.addRef]) deleting deleted, counted.reported⟩
  · simp only [RefCountedObject.addRef, RefCounter.incRef, counted.counter, List.length_cons]
    rw [BitVec.ofNat_add]
    rfl
  · unfold RefCountedObject.addRef
    dsimp only
    split_ifs with own
    · rfl
    · cases counted.stage with
      | fresh _ refs _ _ =>
          rcases uses with member | creator
          · simp [refs] at member
          · exact absurd creator own
      | shared creator _ _ _ => exact creator
      | dropped creator _ _ => exact creator

/-- Releasing a reference keeps the count; the release that took it to zero is to delete. -/
theorem Counted.release {history : List (Answer θ)} {object : RefCountedObject θ}
    (counted : Counted history object) (small : object.refs.length < 2 ^ 32) {thread : θ}
    (member : thread ∈ object.refs)
    : Counted (history ++ (object.release thread).2) (object.release thread).1 := by
  have positive : 0 < object.refs.length := List.length_pos_of_mem member
  have shorter : (object.refs.erase thread).length = object.refs.length - 1 :=
    List.length_erase_of_mem member
  obtain ⟨deleting, deleted⟩ := counted.uses (.inl member)
  have creator : object.creator = none := by
    cases counted.stage with
    | fresh _ refs _ _ => simp [refs] at member
    | shared creator _ _ _ => exact creator
    | dropped creator _ _ => exact creator
  have reported : history.countP Answer.isLast = 0 := counted.reported.trans deleted
  unfold RefCountedObject.release
  rw [counted.counter, decRef_ofNat positive small]
  by_cases last : object.refs.length = 1
  · simp only [last, if_true, List.append_nil]
    refine ⟨by simp [shorter, last], .dropped creator ?_ (by simp [deleting, deleted]), ?_⟩
    · exact List.length_eq_zero_iff.mp (by simp [shorter, last])
    · simpa [deleted] using reported
  · simp only [last, if_false, reduceCtorEq]
    refine ⟨by simp [shorter], .shared creator ?_ deleting deleted, ?_⟩
    · exact List.length_pos_iff.mp (by rw [shorter]; omega)
    · simpa [Answer.isLast, deleted] using reported

/-- Deleting keeps the count: it was the one deletion to come. -/
theorem Counted.deleteThis {history : List (Answer θ)} {object : RefCountedObject θ}
    (counted : Counted history object) {thread : θ} (member : thread ∈ object.deleting)
    : Counted (history ++ (object.deleteThis thread).2) (object.deleteThis thread).1 := by
  cases counted.stage with
  | fresh _ _ deleting _ => simp [deleting] at member
  | shared _ _ deleting _ => simp [deleting] at member
  | dropped creator refs once =>
      have positive : 0 < object.deleting.length := List.length_pos_of_mem member
      have shorter : (object.deleting.erase thread).length = object.deleting.length - 1 :=
        List.length_erase_of_mem member
      refine ⟨counted.counter, .dropped creator refs ?_, ?_⟩
      · change (object.deleting.erase thread).length + (object.deleted + 1) = 1
        omega
      · simpa [RefCountedObject.deleteThis, Answer.isLast] using counted.reported

/-- Passing a reference on keeps the count. -/
theorem Counted.give {history : List (Answer θ)} {object : RefCountedObject θ}
    (counted : Counted history object) {thread : θ} (receiver : θ) (member : thread ∈ object.refs)
    : Counted history { object with refs := receiver :: object.refs.erase thread } := by
  have positive : 0 < object.refs.length := List.length_pos_of_mem member
  have same : (receiver :: object.refs.erase thread).length = object.refs.length := by
    rw [List.length_cons, List.length_erase_of_mem member]
    omega
  refine ⟨by simpa only [same] using counted.counter, ?_, counted.reported⟩
  cases counted.stage with
  | fresh _ refs _ _ => simp [refs] at member
  | shared creator _ deleting deleted => exact .shared creator (by simp) deleting deleted
  | dropped _ refs _ => simp [refs] at member

/-- Every step keeps the count. -/
theorem step_counted {history : List (Answer θ)} {object : RefCountedObject θ} {label : Label θ}
    {reached : RefCountedObject θ × List (Answer θ)} (enabled : reached ∈ object.step label)
    (small : object.refs.length < 2 ^ 32) (counted : Counted history object)
    : Counted (history ++ reached.2) reached.1 := by
  unfold step at enabled
  cases label with
  | addRef thread =>
      obtain ⟨allowed, rfl⟩ : object.Uses thread ∧ (object.addRef thread, []) = reached := by
        simpa using enabled
      simpa using counted.addRef allowed
  | release thread =>
      obtain ⟨allowed, rfl⟩ : thread ∈ object.refs ∧ object.release thread = reached := by
        simpa using enabled
      exact counted.release small allowed
  | deleteThis thread =>
      obtain ⟨allowed, rfl⟩ : thread ∈ object.deleting ∧ object.deleteThis thread = reached := by
        simpa using enabled
      exact counted.deleteThis allowed
  | hasOneRef thread =>
      obtain ⟨-, rfl⟩
          : thread ∈ object.refs ∧ (object, [Answer.oneRef thread object.hasOneRef]) = reached := by
        simpa using enabled
      refine ⟨counted.counter, counted.stage, ?_⟩
      simpa [Answer.isLast] using counted.reported
  | give thread receiver =>
      obtain ⟨allowed, rfl⟩
          : thread ∈ object.refs
            ∧ ({ object with refs := receiver :: object.refs.erase thread }, []) = reached := by
        simpa using enabled
      simpa using counted.give receiver allowed

/-- In every interleaving of threads that use the object only through references they have, with
fewer than 2^32 references at any time: the counter is the number of references, whoever can still
call a method finds the object alive, the object is deleted once and only after its last reference
was dropped, by the one release that reports it, and `has_one_ref` is true exactly for a caller with
the only reference.
-/
theorem ref_counted_object_deleted_once (creator : θ) {labels : List (Label θ)}
    {reached : RefCountedObject θ × List (Answer θ)}
    (runs : reached ∈ runSchedule step (create creator) labels)
    (bounded
      : ∀ earlier, earlier <+: labels
          → ∀ passed ∈ runSchedule step (create creator) earlier, passed.1.refs.length < 2 ^ 32)
    : reached.1.refCount.refCount.toNat = reached.1.refs.length
      ∧ (∀ thread, reached.1.Uses thread → reached.1.deleting = [] ∧ reached.1.deleted = 0)
      ∧ (reached.1.refs = [] → reached.1.creator = none
          → reached.1.deleting.length + reached.1.deleted = 1)
      ∧ reached.2.countP Answer.isLast = reached.1.deleted
      ∧ ∀ thread ∈ reached.1.refs, reached.1.hasOneRef = true ↔ reached.1.refs = [thread] := by
  obtain ⟨counted, small⟩ := runSchedule_invariant_bounded
    (fun object => object.refs.length < 2 ^ 32)
    (fun history object => Counted history object ∧ object.refs.length < 2 ^ 32)
    (fun _ _ _ _ enabled within holds => ⟨step_counted enabled holds.2 holds.1, within⟩)
    ⟨⟨rfl, .fresh rfl rfl rfl rfl, rfl⟩, by simp [create]⟩ runs bounded
  have count : reached.1.refCount.refCount.toNat = reached.1.refs.length := by
    rw [counted.counter, BitVec.toNat_ofNat]
    omega
  refine ⟨count, fun thread uses => counted.uses uses, ?_, counted.reported, ?_⟩
  · intro empty adopted
    cases counted.stage with
    | fresh creator _ _ _ => simp [adopted] at creator
    | shared _ refs _ _ => exact absurd empty refs
    | dropped _ _ once => exact once
  · intro thread member
    have one : reached.1.hasOneRef = true ↔ reached.1.refs.length = 1 := by
      rw [← count, hasOneRef, RefCounter.hasOneRef, beq_iff_eq, ← BitVec.toNat_inj]
      rfl
    rw [one, List.length_eq_one_iff]
    constructor
    · rintro ⟨only, refs⟩
      rw [refs, List.mem_singleton] at member
      rw [refs, member]
    · intro refs
      exact ⟨thread, refs⟩

/-- One thread makes two references, passes one on, and both threads release theirs. -/
def handover : List (Label Bool) :=
  [.addRef true, .addRef true, .give true false, .release true, .hasOneRef false, .release false,
    .deleteThis false]

theorem ref_counted_object_deleted_once_handover
    : ∃ reached ∈ runSchedule step (create true) handover,
        reached.2
          = [.released true .kOtherRefsRemained, .oneRef false true,
              .released false .kDroppedLastRef]
        ∧ reached.2.countP Answer.isLast = reached.1.deleted := by
  have finishes : (runSchedule step (create true) handover).isSome = true := by decide
  obtain ⟨reached, runs⟩ := Option.isSome_iff_exists.mp finishes
  have observed
      : (runSchedule step (create true) handover).map Prod.snd
        = some [.released true .kOtherRefsRemained, .oneRef false true,
            .released false .kDroppedLastRef] := by
    decide
  have few
      : ∀ earlier ∈ handover.inits, ∀ passed ∈ runSchedule step (create true) earlier,
          passed.1.refs.length < 2 ^ 32 := by
    decide
  rw [runs] at observed
  refine ⟨reached, runs, Option.some.inj observed,
    (ref_counted_object_deleted_once true runs ?_).2.2.2.1⟩
  intro earlier isPrefix
  exact few earlier ((List.mem_inits earlier handover).mpr isPrefix)

end Lifetime

end RefCountedObject

end RtcBase.Threads

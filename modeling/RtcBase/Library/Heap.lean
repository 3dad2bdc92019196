import Mathlib.Data.List.Nodup
import Mathlib.Logic.Function.Basic

/-! Objects on a heap. An object is created once and keeps its identity, a number; using or
deleting an object that is not live is a fault. The heap remembers which objects were deleted,
each of them once.
-/

namespace RtcBase.Library

/-- A heap of objects. Every object created so far is live or deleted, and no object is deleted
twice.
-/
structure Heap (α : Type*) where
  objects : Nat → Option α
  next : Nat
  deleted : List Nat
  lt_next : ∀ {o v}, objects o = some v → o < next
  mem_deleted : ∀ {o}, o ∈ deleted ↔ o < next ∧ objects o = none
  deleted_nodup : deleted.Nodup

namespace Heap

variable {α : Type*}

/-- The heap before any object is created. -/
def empty : Heap α where
  objects _ := none
  next := 0
  deleted := []
  lt_next h := by cases h
  mem_deleted := by simp
  deleted_nodup := List.nodup_nil

/-- Create an object. -/
def create (heap : Heap α) (value : α) : Heap α where
  objects := Function.update heap.objects heap.next (some value)
  next := heap.next + 1
  deleted := heap.deleted
  lt_next := by
    intro o v found
    by_cases same : o = heap.next
    · omega
    · rw [Function.update_of_ne same] at found
      have := heap.lt_next found
      omega
  mem_deleted := by
    intro o
    by_cases same : o = heap.next
    · simp [same, heap.mem_deleted]
    · rw [Function.update_of_ne same, heap.mem_deleted]
      have bound : o < heap.next + 1 ↔ o < heap.next := by omega
      rw [bound]
  deleted_nodup := heap.deleted_nodup

/-- Create an object for each value, in order, with the identities that they get. -/
def createAll : Heap α → List α → List Nat × Heap α
  | heap, [] => ([], heap)
  | heap, value :: rest =>
      let created := (heap.create value).createAll rest
      (heap.next :: created.1, created.2)

/-- Replace the value of a live object. -/
def modify (heap : Heap α) (o : Nat) (f : α → α) : Option (Heap α) :=
  match found : heap.objects o with
  | none => none
  | some value =>
      some
        { objects := Function.update heap.objects o (some (f value))
          next := heap.next
          deleted := heap.deleted
          lt_next := by
            intro other v live
            by_cases same : other = o
            · exact same ▸ heap.lt_next found
            · rw [Function.update_of_ne same] at live
              exact heap.lt_next live
          mem_deleted := by
            intro other
            by_cases same : other = o
            · simp [same, heap.mem_deleted, found]
            · rw [Function.update_of_ne same, heap.mem_deleted]
          deleted_nodup := heap.deleted_nodup }

/-- Delete a live object. -/
def delete (heap : Heap α) (o : Nat) : Option (Heap α) :=
  match found : heap.objects o with
  | none => none
  | some _ =>
      some
        { objects := Function.update heap.objects o none
          next := heap.next
          deleted := heap.deleted ++ [o]
          lt_next := by
            intro other v live
            by_cases same : other = o
            · simp [same] at live
            · rw [Function.update_of_ne same] at live
              exact heap.lt_next live
          mem_deleted := by
            intro other
            by_cases same : other = o
            · simp [same, heap.lt_next found]
            · simp [same, heap.mem_deleted]
          deleted_nodup := by
            have notDeleted : o ∉ heap.deleted := by simp [heap.mem_deleted, found]
            exact List.Nodup.append heap.deleted_nodup (List.nodup_singleton o) (by simpa) }

/-- Replacing the value of a live object succeeds and touches no other object. -/
theorem modify_spec {heap : Heap α} {o : Nat} {value : α}
    (live : heap.objects o = some value) (f : α → α)
    : ∃ after,
        heap.modify o f = some after
        ∧ after.objects = Function.update heap.objects o (some (f value))
        ∧ after.next = heap.next := by
  unfold modify
  split
  · rename_i missing
    cases live.symm.trans missing
  · rename_i found
    cases live.symm.trans found
    exact ⟨_, rfl, rfl, rfl⟩

/-- Replacing a value that succeeds was on a live object. -/
theorem objects_of_modify {heap after : Heap α} {o : Nat} {f : α → α}
    (modified : heap.modify o f = some after)
    : after.objects = Function.update heap.objects o ((heap.objects o).map f) := by
  cases found : heap.objects o with
  | none =>
      unfold modify at modified
      split at modified
      · cases modified
      · rename_i live
        cases live.symm.trans found
  | some value =>
      obtain ⟨same, succeeds, objects, -⟩ := modify_spec found f
      cases succeeds.symm.trans modified
      exact objects

/-- Deleting a live object succeeds and touches no other object. -/
theorem delete_spec {heap : Heap α} {o : Nat} {value : α}
    (live : heap.objects o = some value)
    : ∃ after,
        heap.delete o = some after
        ∧ after.objects = Function.update heap.objects o none
        ∧ after.next = heap.next := by
  unfold delete
  split
  · rename_i missing
    cases live.symm.trans missing
  · exact ⟨_, rfl, rfl, rfl⟩

/-- Created objects are new, distinct and live with their values, and no other object changes, by
induction on the values.
-/
theorem createAll_spec (heap : Heap α) (values : List α)
    : (heap.createAll values).1.length = values.length
      ∧ (heap.createAll values).1.Nodup
      ∧ (∀ o ∈ (heap.createAll values).1, heap.next ≤ o)
      ∧ (∀ pair ∈ (heap.createAll values).1.zip values,
          (heap.createAll values).2.objects pair.1 = some pair.2)
      ∧ ∀ o, o ∉ (heap.createAll values).1
          → (heap.createAll values).2.objects o = heap.objects o := by
  induction values generalizing heap with
  | nil => simp [createAll]
  | cons value rest ih =>
      obtain ⟨lengths, distinct, later, live, kept⟩ := ih (heap.create value)
      have next : (heap.create value).next = heap.next + 1 := rfl
      rw [next] at later
      have fresh : heap.next ∉ ((heap.create value).createAll rest).1 := by
        intro again
        have := later _ again
        omega
      refine ⟨by simp [createAll, lengths], List.nodup_cons.mpr ⟨fresh, distinct⟩, ?_, ?_, ?_⟩
      · intro o member
        rcases List.mem_cons.mp member with rfl | member
        · exact Nat.le_refl _
        · have := later o member
          omega
      · intro pair member
        rcases List.mem_cons.mp member with rfl | member
        · have first := kept heap.next fresh
          simpa [createAll, create] using first
        · exact live pair member
      · intro o outside
        simp only [createAll, List.mem_cons, not_or] at outside
        obtain ⟨other, notLater⟩ := outside
        have same := kept o notLater
        simpa [createAll, create, other] using same

end Heap

end RtcBase.Library

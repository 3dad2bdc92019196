import RtcBase.Library.Heap
import Mathlib.Data.List.Count

/-! Objects on a heap that count the references to them and are deleted with the last one. The
account of a heap is the list of all references that are held, in any order.
-/

namespace RtcBase.Library

/-- An object with the number of references to it. -/
structure Counted (α : Type*) where
  references : Nat
  content : α
deriving DecidableEq, Repr

/-- A heap of objects that are counted. -/
abbrev CountedHeap (α : Type*) := Heap (Counted α)

namespace CountedHeap

variable {α : Type*}

/-- A new object, with one reference, at the next place. -/
def allocate (heap : CountedHeap α) (content : α) : CountedHeap α := heap.create ⟨1, content⟩

def addReference (heap : CountedHeap α) (o : Nat) : Option (CountedHeap α) :=
  heap.modify o fun object => { object with references := object.references + 1 }

/-- Drop a reference, and the object with the last one. -/
def release (heap : CountedHeap α) (o : Nat) : Option (CountedHeap α) :=
  match heap.objects o with
  | none => none
  | some object =>
      if object.references = 1 then heap.delete o
      else heap.modify o fun object => { object with references := object.references - 1 }

/-- A reference more to each object of a list. -/
def addReferences (heap : CountedHeap α) : List Nat → Option (CountedHeap α)
  | [] => some heap
  | o :: rest => (heap.addReference o).bind fun later => addReferences later rest

/-- A reference less to each object of a list. -/
def releaseAll (heap : CountedHeap α) : List Nat → Option (CountedHeap α)
  | [] => some heap
  | o :: rest => (heap.release o).bind fun later => releaseAll later rest

def setContent (heap : CountedHeap α) (o : Nat) (content : α) : Option (CountedHeap α) :=
  heap.modify o fun object => { object with content := content }

def content (heap : CountedHeap α) (o : Nat) : Option α := (heap.objects o).map Counted.content

/-- The references of an object; a deleted object has none. -/
def references (heap : CountedHeap α) (o : Nat) : Nat :=
  ((heap.objects o).map Counted.references).getD 0

/-- Every object has as many references as are held, and a live one has some. -/
structure Accounts (heap : CountedHeap α) (held : List Nat) : Prop where
  counts : ∀ o, heap.references o = held.count o
  positive : ∀ o object, heap.objects o = some object → 0 < object.references

/-- A heap later on: no object has come back to life, and what is alive still has its content. -/
structure Extends (heap later : CountedHeap α) : Prop where
  next : heap.next ≤ later.next
  contents
    : ∀ o < heap.next, ∀ object, later.objects o = some object
        → heap.content o = some object.content

variable {heap middle later : CountedHeap α} {held other : List Nat} {o : Nat}

theorem Extends.refl (heap : CountedHeap α) : Extends heap heap :=
  ⟨Nat.le_refl _, fun o _ object live => by simp [content, live]⟩

theorem Extends.trans (first : Extends heap middle) (second : Extends middle later)
    : Extends heap later := by
  refine ⟨Nat.le_trans first.next second.next, ?_⟩
  intro o old object live
  have between := second.contents o (by have := first.next; omega) object live
  obtain ⟨before, alive, same⟩ := Option.map_eq_some_iff.mp between
  rw [first.contents o old before alive, same]

theorem Accounts.perm (accounts : Accounts heap held) (same : held.Perm other)
    : Accounts heap other :=
  ⟨fun o => by rw [accounts.counts, same.count_eq], accounts.positive⟩

/-- What is held is alive. -/
theorem Accounts.live (accounts : Accounts heap held) (member : o ∈ held)
    : ∃ object, heap.objects o = some object ∧ object.references = held.count o := by
  have counts := accounts.counts o
  have positive := List.count_pos_iff.mpr member
  cases found : heap.objects o with
  | none => simp [references, found] at counts; omega
  | some object => exact ⟨object, rfl, by simpa [references, found] using counts⟩

theorem Accounts.lt_next (accounts : Accounts heap held) (member : o ∈ held) : o < heap.next := by
  obtain ⟨object, live, -⟩ := accounts.live member
  exact heap.lt_next live

/-- One object changes: what there is to check of the new heap. -/
theorem Accounts.update (accounts : Accounts heap held) (o : Nat) (value : Option (Counted α))
    (objects : later.objects = Function.update heap.objects o value)
    (here : (value.map Counted.references).getD 0 = other.count o)
    (positive : ∀ object, value = some object → 0 < object.references)
    (others : ∀ q, q ≠ o → other.count q = held.count q)
    : Accounts later other := by
  constructor
  · intro q
    by_cases same : q = o
    · subst same
      simpa [references, objects] using here
    · have counts := accounts.counts q
      rw [others q same, ← counts]
      simp [references, objects, same]
  · intro q object live
    by_cases same : q = o
    · subst same
      exact positive object (by simpa [objects] using live)
    · exact accounts.positive q object (by simpa [objects, same] using live)

/-- One object changes but for its content, or is gone, or is new. -/
theorem Extends.update (o : Nat) (value : Option (Counted α))
    (objects : later.objects = Function.update heap.objects o value)
    (next : heap.next ≤ later.next)
    (content
      : o < heap.next → ∀ object, value = some object → heap.content o = some object.content)
    : Extends heap later := by
  refine ⟨next, ?_⟩
  intro q old object live
  by_cases same : q = o
  · subst same
    exact content old object (by simpa [objects] using live)
  · have before : heap.objects q = some object := by simpa [objects, same] using live
    simp [CountedHeap.content, before]

/-- A new object is held once. -/
theorem Accounts.allocate (accounts : Accounts heap held) (content : α)
    : Accounts (heap.allocate content) (heap.next :: held) := by
  have fresh : held.count heap.next = 0 := by
    rw [List.count_eq_zero]
    intro member
    exact absurd (accounts.lt_next member) (by omega)
  refine accounts.update heap.next (some ⟨1, content⟩) rfl ?_ ?_ ?_
  · simp [fresh]
  · rintro object ⟨⟩
    exact Nat.one_pos
  · intro q different
    simp [different.symm]

theorem Extends.allocate (heap : CountedHeap α) (content : α)
    : Extends heap (heap.allocate content) :=
  Extends.update heap.next (some ⟨1, content⟩) rfl (Nat.le_succ _)
    (fun old => by omega)

@[simp] theorem content_allocate (heap : CountedHeap α) (content : α)
    : (heap.allocate content).content heap.next = some content := by
  simp [CountedHeap.content, CountedHeap.allocate, Heap.create]

/-- A reference more to an object that is held. -/
theorem Accounts.addReference (accounts : Accounts heap held) (member : o ∈ held)
    : ∃ later, heap.addReference o = some later ∧ Accounts later (o :: held) ∧ Extends heap later := by
  obtain ⟨object, live, references⟩ := accounts.live member
  obtain ⟨later, succeeds, objects, next⟩ :=
    Heap.modify_spec live fun object => { object with references := object.references + 1 }
  refine ⟨later, succeeds, accounts.update o _ objects ?_ ?_ ?_, .update o _ objects ?_ ?_⟩
  · simp [references]
  · rintro same ⟨⟩
    exact Nat.succ_pos _
  · intro q different
    simp [different.symm]
  · exact Nat.le_of_eq next.symm
  · rintro - same ⟨⟩
    simp [CountedHeap.content, live]

/-- A reference less to an object that is held. -/
theorem Accounts.release (accounts : Accounts heap (o :: held))
    : ∃ later, heap.release o = some later ∧ Accounts later held ∧ Extends heap later := by
  obtain ⟨object, live, references⟩ := accounts.live List.mem_cons_self
  rw [List.count_cons_self] at references
  have others (q : Nat) (different : q ≠ o) : held.count q = (o :: held).count q := by
    simp [different.symm]
  unfold CountedHeap.release
  simp only [live]
  split
  next last =>
    obtain ⟨later, succeeds, objects, next⟩ := Heap.delete_spec live
    refine ⟨later, succeeds, accounts.update o none objects ?_ ?_ others, .update o none objects ?_ ?_⟩
    · simp only [Option.map_none, Option.getD_none]
      omega
    · rintro same ⟨⟩
    · exact Nat.le_of_eq next.symm
    · rintro - same ⟨⟩
  next more =>
    obtain ⟨later, succeeds, objects, next⟩ :=
      Heap.modify_spec live fun object => { object with references := object.references - 1 }
    have positive := accounts.positive o object live
    refine ⟨later, succeeds, accounts.update o _ objects ?_ ?_ others, .update o _ objects ?_ ?_⟩
    · simp only [Option.map_some, Option.getD_some]
      omega
    · rintro same ⟨⟩
      simp only
      omega
    · exact Nat.le_of_eq next.symm
    · rintro - same ⟨⟩
      simp [CountedHeap.content, live]

/-- A reference more to each of some objects that are held, by induction on them. -/
theorem Accounts.addReferences (accounts : Accounts heap held) {more : List Nat}
    (members : ∀ o ∈ more, o ∈ held)
    : ∃ later, heap.addReferences more = some later ∧ Accounts later (more ++ held)
        ∧ Extends heap later := by
  induction more generalizing heap held with
  | nil => exact ⟨heap, rfl, accounts, .refl heap⟩
  | cons o rest ih =>
      obtain ⟨member, members⟩ := List.forall_mem_cons.mp members
      obtain ⟨middle, succeeds, accounts, extension⟩ := accounts.addReference member
      obtain ⟨later, goesOn, accounts, onward⟩ :=
        ih accounts fun q there => List.mem_cons_of_mem o (members q there)
      refine ⟨later, ?_, accounts.perm List.perm_middle, extension.trans onward⟩
      simp [CountedHeap.addReferences, succeeds, goesOn]

/-- A reference less to each of some objects, by induction on them. -/
theorem Accounts.releaseAll {less : List Nat} (accounts : Accounts heap (less ++ held))
    : ∃ later, heap.releaseAll less = some later ∧ Accounts later held ∧ Extends heap later := by
  induction less generalizing heap with
  | nil => exact ⟨heap, rfl, accounts, .refl heap⟩
  | cons o rest ih =>
      obtain ⟨middle, succeeds, accounts, extension⟩ := accounts.release
      obtain ⟨later, goesOn, accounts, onward⟩ := ih accounts
      refine ⟨later, ?_, accounts, extension.trans onward⟩
      simp [CountedHeap.releaseAll, succeeds, goesOn]

/-- An object that is held gets a content. -/
theorem Accounts.setContent (accounts : Accounts heap held) (member : o ∈ held) (content : α)
    : ∃ later, heap.setContent o content = some later ∧ Accounts later held
        ∧ later.content o = some content
        ∧ ∀ {start : CountedHeap α}, Extends start heap → start.next ≤ o → Extends start later := by
  obtain ⟨object, live, references⟩ := accounts.live member
  obtain ⟨later, succeeds, objects, next⟩ :=
    Heap.modify_spec live fun object => { object with content := content }
  refine ⟨later, succeeds, accounts.update o _ objects ?_ ?_ fun _ _ => rfl, ?_, ?_⟩
  · simpa using references
  · rintro same ⟨⟩
    exact accounts.positive o object live
  · simp [CountedHeap.content, objects]
  · intro start extension new
    refine ⟨by rw [next]; exact extension.next, ?_⟩
    intro q old same alive
    have different : q ≠ o := by omega
    exact extension.contents q old same (by simpa [objects, different] using alive)

/-- An object that is held keeps its content. -/
theorem Extends.content_eq (extension : Extends heap later) (accounts : Accounts later held)
    (member : o ∈ held) (old : o < heap.next)
    : later.content o = heap.content o := by
  obtain ⟨object, live, -⟩ := accounts.live member
  rw [extension.contents o old object live, CountedHeap.content, live, Option.map_some]

end CountedHeap

end RtcBase.Library

import Mathlib.Data.List.InsertIdx
import Mathlib.Data.List.Perm.Basic
import Mathlib.Order.Lattice
import RtcBase.Library.IterList

/-! An ordered container that keeps equal elements, with iterators that survive insertions and
the erasure of other elements. An iterator is the identity of a node, or the end. Where an
operation is undefined (a dangling iterator, a step outside the container) there is no result.
-/

namespace RtcBase.Library

/-- Nodes in ascending order of their values, under distinct identities below the next one. -/
structure OrderedMultiset (α : Type*) [LinearOrder α] where
  nodes : List (Node α)
  fresh : Nat
  sorted : nodes.Pairwise (fun a b => a.value ≤ b.value)
  distinct : (nodes.map Node.id).Nodup
  below : ∀ node ∈ nodes, node.id < fresh

-----------------------------------------------------------------------------------------
-- Searching a sorted list
-----------------------------------------------------------------------------------------

/-- In a sorted list, the elements that satisfy an upward-closed test are those from the first
such element on.
-/
theorem findIdx_le_iff {β : Type*} {r : β → β → Prop} {test : β → Bool}
    (closed : ∀ a b, r a b → test a = true → test b = true)
    {list : List β} (sorted : list.Pairwise r) {i : Nat} (bound : i < list.length)
    : list.findIdx test ≤ i ↔ test list[i] = true := by
  constructor
  · intro reached
    have found : test (list[list.findIdx test]) = true := List.findIdx_getElem
    rcases Nat.lt_or_eq_of_le reached with before | same
    · exact closed _ _ (List.pairwise_iff_getElem.mp sorted _ _ _ bound before) found
    · simpa [same] using found
  · intro holds
    by_contra later
    have fails := List.not_of_lt_findIdx (Nat.lt_of_not_le later)
    simp [holds] at fails

/-- An element inserted behind those related to it and before those it is related to leaves the
list pairwise related. The cases are the positions of two indices around the new element.
-/
theorem pairwise_insertIdx {β : Type*} {r : β → β → Prop} {list : List β} {x : β} {index : Nat}
    (sorted : list.Pairwise r)
    (before : ∀ i, (bound : i < list.length) → i < index → r list[i] x)
    (behind : ∀ i, (bound : i < list.length) → index ≤ i → r x list[i])
    : (list.insertIdx index x).Pairwise r := by
  have related := List.pairwise_iff_getElem.mp sorted
  rw [List.pairwise_iff_getElem]
  intro i j iBound jBound ordered
  simp only [List.getElem_insertIdx]
  split_ifs
  · exact related i j _ _ ordered
  · exact before i _ (by omega)
  · exact related i (j - 1) _ _ (by omega)
  · omega
  · omega
  · exact behind (j - 1) _ (by omega)
  · omega
  · omega
  · exact related (i - 1) (j - 1) _ _ (by omega)

namespace OrderedMultiset

variable {α : Type*} [LinearOrder α]

-----------------------------------------------------------------------------------------
-- Contents and iterators
-----------------------------------------------------------------------------------------

/-- The values, in order. -/
def values (s : OrderedMultiset α) : List α := s.nodes.map Node.value

/-- The number of elements. -/
def size (s : OrderedMultiset α) : Nat := s.nodes.length

/-- No elements. -/
def empty : OrderedMultiset α := ⟨[], 0, by simp, by simp, by simp⟩

/-- Remove every element. Identities already given out stay used. -/
def clear (s : OrderedMultiset α) : OrderedMultiset α :=
  ⟨[], s.fresh, by simp, by simp, by simp⟩

/-- The iterator to the element of the given index; the end from the size on. -/
def iteratorAt (s : OrderedMultiset α) (i : Nat) : Option Nat := s.nodes[i]?.map Node.id

/-- The iterator to the first element. -/
def begin (s : OrderedMultiset α) : Option Nat := s.iteratorAt 0

/-- The index that an iterator stands for, unless it is dangling. -/
def position (s : OrderedMultiset α) : Option Nat → Option Nat
  | none => some s.size
  | some id => s.nodes.findIdx? (fun node => node.id = id)

/-- The value that an iterator designates. -/
def deref (s : OrderedMultiset α) (it : Option Nat) : Option α :=
  it.bind (fun id => (s.nodes.find? (fun node => node.id = id)).map Node.value)

/-- Move an iterator by a number of elements, forward or back. -/
def advance (s : OrderedMultiset α) (it : Option Nat) (count : Int) : Option (Option Nat) := do
  let i ← s.position it
  let target := (i : Int) + count
  if 0 ≤ target ∧ target ≤ s.size then some (s.iteratorAt target.toNat) else none

/-- The index of the first element above the value. -/
def upperIndex (s : OrderedMultiset α) (value : α) : Nat :=
  s.nodes.findIdx (fun node => value < node.value)

/-- The index of the first element that is not below the value. -/
def lowerIndex (s : OrderedMultiset α) (value : α) : Nat :=
  s.nodes.findIdx (fun node => ¬node.value < value)

/-- The iterator to the first element that is not below the value. -/
def lowerBound (s : OrderedMultiset α) (value : α) : Option Nat :=
  s.iteratorAt (s.lowerIndex value)

theorem upperIndex_le (s : OrderedMultiset α) (value : α) : s.upperIndex value ≤ s.size :=
  List.findIdx_le_length

/-- An element is above the value exactly when it stands at the upper index or behind it. -/
theorem upperIndex_le_iff (s : OrderedMultiset α) (value : α) {i : Nat} (bound : i < s.nodes.length)
    : s.upperIndex value ≤ i ↔ value < s.nodes[i].value := by
  have closed : ∀ a b : Node α, a.value ≤ b.value
      → decide (value < a.value) = true → decide (value < b.value) = true := by
    intro a b ordered above
    simp only [decide_eq_true_eq] at above ⊢
    exact lt_of_lt_of_le above ordered
  simpa [upperIndex] using findIdx_le_iff closed s.sorted bound

/-- An element is at least the value exactly when it stands at the lower index or behind it. -/
theorem lowerIndex_le_iff (s : OrderedMultiset α) (value : α) {i : Nat} (bound : i < s.nodes.length)
    : s.lowerIndex value ≤ i ↔ value ≤ s.nodes[i].value := by
  have closed : ∀ a b : Node α, a.value ≤ b.value
      → decide (¬a.value < value) = true → decide (¬b.value < value) = true := by
    intro a b ordered reached
    simp only [decide_eq_true_eq, not_lt] at reached ⊢
    exact le_trans reached ordered
  simpa [lowerIndex] using findIdx_le_iff closed s.sorted bound

/-- Nodes of one identity stand at one index. -/
theorem index_of_id (s : OrderedMultiset α) {i j : Nat} (iBound : i < s.nodes.length)
    (jBound : j < s.nodes.length) (same : s.nodes[i].id = s.nodes[j].id)
    : i = j := by
  have iMapped : i < (s.nodes.map Node.id).length := by simpa using iBound
  have jMapped : j < (s.nodes.map Node.id).length := by simpa using jBound
  have equal : (s.nodes.map Node.id)[i] = (s.nodes.map Node.id)[j] := by simpa using same
  exact (s.distinct.getElem_inj_iff).mp equal

/-- The iterator to an index stands for that index, the end included. -/
theorem position_iteratorAt (s : OrderedMultiset α) {i : Nat} (bound : i ≤ s.size)
    : s.position (s.iteratorAt i) = some i := by
  rcases Nat.lt_or_eq_of_le bound with inside | atEnd
  · have index : i < s.nodes.length := inside
    simp only [iteratorAt, List.getElem?_eq_getElem index, Option.map_some, position]
    rw [List.findIdx?_eq_some_iff_getElem]
    refine ⟨index, by simp, ?_⟩
    intro j before same
    have equal : s.nodes[j].id = s.nodes[i].id := by simpa using same
    have := s.index_of_id (Nat.lt_trans before index) index equal
    omega
  · subst i
    simp [iteratorAt, position, size]

/-- Iterators to different indices differ. -/
theorem iteratorAt_inj (s : OrderedMultiset α) {i j : Nat} (iBound : i ≤ s.size)
    (jBound : j ≤ s.size)
    : s.iteratorAt i = s.iteratorAt j ↔ i = j := by
  constructor
  · intro same
    have positions := s.position_iteratorAt iBound
    rw [same, s.position_iteratorAt jBound] at positions
    exact (Option.some.inj positions).symm
  · intro same
    rw [same]

/-- The iterator to an index designates the value there. -/
theorem deref_iteratorAt (s : OrderedMultiset α) (i : Nat)
    : s.deref (s.iteratorAt i) = s.values[i]? := by
  by_cases index : i < s.nodes.length
  · have found : s.nodes.find? (fun node => node.id = s.nodes[i].id) = some s.nodes[i] := by
      rw [List.find?_eq_some_iff_getElem]
      refine ⟨by simp, i, index, rfl, ?_⟩
      intro j before
      have := s.index_of_id (Nat.lt_trans before index) index
      simp only [Bool.not_eq_true', decide_eq_false_iff_not]
      intro same
      have := this same
      omega
    simp [deref, iteratorAt, values, List.getElem?_eq_getElem index, found]
  · simp [deref, iteratorAt, values, List.getElem?_eq_none (Nat.le_of_not_lt index)]

/-- The identity of a node is the iterator to its index, and designates its value. -/
theorem iterator_of_getElem? (s : OrderedMultiset α) {i : Nat} {node : Node α}
    (found : s.nodes[i]? = some node)
    : s.iteratorAt i = some node.id ∧ s.deref (some node.id) = some node.value := by
  have iterator : s.iteratorAt i = some node.id := by simp [iteratorAt, found]
  have designated := s.deref_iteratorAt i
  rw [iterator] at designated
  exact ⟨iterator, by simpa [values, found] using designated⟩

/-- Advancing from one index to another gets there. -/
theorem advance_iteratorAt (s : OrderedMultiset α) {i j : Nat} (iBound : i ≤ s.size)
    (jBound : j ≤ s.size)
    : s.advance (s.iteratorAt i) ((j : Int) - i) = some (s.iteratorAt j) := by
  have target : (i : Int) + ((j : Int) - i) = j := by omega
  simp [advance, s.position_iteratorAt iBound, target, jBound]

-----------------------------------------------------------------------------------------
-- Insertion
-----------------------------------------------------------------------------------------

/-- Insert a value behind the elements that are not above it. -/
def insert (s : OrderedMultiset α) (value : α) : OrderedMultiset α where
  nodes := s.nodes.insertIdx (s.upperIndex value) ⟨s.fresh, value⟩
  fresh := s.fresh + 1
  sorted := by
    refine pairwise_insertIdx s.sorted ?_ ?_
    · intro i bound before
      have notAbove := mt (s.upperIndex_le_iff value bound).mpr (Nat.not_le_of_lt before)
      exact not_lt.mp notAbove
    · intro i bound behind
      exact le_of_lt ((s.upperIndex_le_iff value bound).mp behind)
  distinct := by
    have mapped := List.map_insertIdx Node.id s.nodes (s.upperIndex value) ⟨s.fresh, value⟩
    have arranged := List.perm_insertIdx s.fresh (s.nodes.map Node.id)
      (by simpa [size] using s.upperIndex_le value)
    rw [mapped, arranged.nodup_iff, List.nodup_cons]
    refine ⟨?_, s.distinct⟩
    intro used
    obtain ⟨node, member, same⟩ := List.mem_map.mp used
    have := s.below node member
    omega
  below := by
    intro node member
    rcases List.eq_or_mem_of_mem_insertIdx member with rfl | old
    · exact Nat.lt_succ_self _
    · exact Nat.lt_succ_of_lt (s.below node old)

/-- Insertion adds one value. -/
theorem values_insert (s : OrderedMultiset α) (value : α)
    : (s.insert value).values.Perm (value :: s.values) := by
  have mapped := List.map_insertIdx Node.value s.nodes (s.upperIndex value) ⟨s.fresh, value⟩
  simp only [values, insert, mapped]
  exact List.perm_insertIdx value (s.nodes.map Node.value)
    (by simpa [size] using s.upperIndex_le value)

@[simp]
theorem size_insert (s : OrderedMultiset α) (value : α) : (s.insert value).size = s.size + 1 := by
  simpa [size, insert] using List.length_insertIdx_of_le_length (s.upperIndex_le value) _

/-- Insertion moves an element on by one when the new value is below it, and leaves it where it
is otherwise.
-/
theorem getElem?_insert (s : OrderedMultiset α) (value : α) {i : Nat} (bound : i < s.nodes.length)
    : (s.insert value).nodes[if value < s.nodes[i].value then i + 1 else i]?
      = some s.nodes[i] := by
  split_ifs with above
  · have behind := (s.upperIndex_le_iff value bound).mpr above
    have moved := @List.getElem?_insertIdx_of_gt _ s.nodes ⟨s.fresh, value⟩ _ _
      (Nat.lt_succ_of_le behind)
    simpa [insert, List.getElem?_eq_getElem bound] using moved
  · have before := Nat.lt_of_not_le (mt (s.upperIndex_le_iff value bound).mp above)
    have kept := @List.getElem?_insertIdx_of_lt _ s.nodes ⟨s.fresh, value⟩ _ _ before
    simpa [insert, List.getElem?_eq_getElem bound] using kept

-----------------------------------------------------------------------------------------
-- Erasure
-----------------------------------------------------------------------------------------

/-- Remove the element of an index. -/
def eraseAt (s : OrderedMultiset α) (i : Nat) : OrderedMultiset α where
  nodes := s.nodes.eraseIdx i
  fresh := s.fresh
  sorted := s.sorted.eraseIdx i
  distinct := by
    rw [← List.eraseIdx_map]
    exact s.distinct.eraseIdx i
  below := fun node member => s.below node (List.mem_of_mem_eraseIdx member)

/-- Remove the element that an iterator designates, and return the iterator to the next one. -/
def erase (s : OrderedMultiset α) (it : Option Nat)
    : Option (OrderedMultiset α × Option Nat) :=
  (s.position it).bind (fun i =>
    if i < s.size then some (s.eraseAt i, (s.eraseAt i).iteratorAt i) else none)

theorem erase_iteratorAt (s : OrderedMultiset α) {i : Nat} (bound : i < s.size)
    : s.erase (s.iteratorAt i) = some (s.eraseAt i, (s.eraseAt i).iteratorAt i) := by
  simp [erase, s.position_iteratorAt (Nat.le_of_lt bound), bound]

@[simp]
theorem values_eraseAt (s : OrderedMultiset α) (i : Nat)
    : (s.eraseAt i).values = s.values.eraseIdx i := by
  simp [values, eraseAt, List.eraseIdx_map]

theorem size_eraseAt (s : OrderedMultiset α) {i : Nat} (bound : i < s.size)
    : (s.eraseAt i).size = s.size - 1 := by
  simpa [size, eraseAt] using List.length_eraseIdx_of_lt bound

/-- Erasing the first of the elements equal to a value moves another element back by one when it
is at least the value, and leaves it where it is otherwise.
-/
theorem getElem?_eraseAt_lowerIndex (s : OrderedMultiset α) (value : α) {i : Nat}
    (bound : i < s.nodes.length) (other : s.lowerIndex value ≠ i)
    : (s.eraseAt (s.lowerIndex value)).nodes[if value ≤ s.nodes[i].value then i - 1 else i]?
      = some s.nodes[i] := by
  split_ifs with reached
  · have behind := (s.lowerIndex_le_iff value bound).mpr reached
    have moved := @List.getElem?_eraseIdx_of_ge _ s.nodes (s.lowerIndex value) (i - 1) (by omega)
    have restored : i - 1 + 1 = i := by omega
    simpa [eraseAt, restored, List.getElem?_eq_getElem bound] using moved
  · have before := Nat.lt_of_not_le (mt (s.lowerIndex_le_iff value bound).mp reached)
    have kept := @List.getElem?_eraseIdx_of_lt _ s.nodes _ _ before
    simpa [eraseAt, List.getElem?_eq_getElem bound] using kept

/-- A value that is in the container is found at its lower index. -/
theorem getElem?_lowerIndex (s : OrderedMultiset α) {value : α} (present : value ∈ s.values)
    : s.values[s.lowerIndex value]? = some value := by
  obtain ⟨i, bound, same⟩ := List.getElem_of_mem present
  have index : i < s.nodes.length := by simpa [values] using bound
  have equal : s.nodes[i].value = value := by simpa [values] using same
  have first : s.lowerIndex value ≤ i := (s.lowerIndex_le_iff value index).mpr (le_of_eq equal.symm)
  have lower : s.lowerIndex value < s.nodes.length := Nat.lt_of_le_of_lt first index
  have atLeast : value ≤ s.nodes[s.lowerIndex value].value :=
    (s.lowerIndex_le_iff value lower).mp (Nat.le_refl _)
  have atMost : s.nodes[s.lowerIndex value].value ≤ value := by
    rcases Nat.lt_or_eq_of_le first with before | here
    · exact equal ▸ List.pairwise_iff_getElem.mp s.sorted _ _ lower index before
    · simp [here, equal]
  simp [values, List.getElem?_eq_getElem lower, le_antisymm atMost atLeast]

/-- Erasing at the lower index of a value removes one occurrence of it. -/
theorem values_eraseAt_lowerIndex (s : OrderedMultiset α) {value : α} (present : value ∈ s.values)
    : (value :: (s.eraseAt (s.lowerIndex value)).values).Perm s.values := by
  obtain ⟨bound, found⟩ := List.getElem?_eq_some_iff.mp (s.getElem?_lowerIndex present)
  have restored := List.getElem_cons_eraseIdx_perm bound
  rwa [found, ← s.values_eraseAt] at restored

end OrderedMultiset

end RtcBase.Library

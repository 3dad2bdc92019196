import Mathlib.Data.Multiset.Sort
import RtcBase.Library.OrderedMultiset
import RtcBase.Library.Runs

/-! The container of `PercentileFilter` with its iterator and index, for any function from the number
of elements to the index to keep. Calls move the iterator by the difference to the new index only, so
the filter is right as long as the stored index is that of the element under the iterator. `none` is
an iterator used where it designates nothing.
-/

namespace RtcBase.Filters

open Library

variable {T : Type} [LinearOrder T]

/-- The fields of `PercentileFilter<T>` without the percentile. -/
structure IndexFilter (T : Type) [LinearOrder T] where
  set : OrderedMultiset T
  percentileIt : Option Nat
  percentileIndex : Int

namespace IndexFilter

def construct : IndexFilter T := ⟨.empty, OrderedMultiset.begin (.empty : OrderedMultiset T), 0⟩

/-- `PercentileFilter::update_percentile_iterator`, with `target` in place of the percentile. -/
def updatePercentileIterator (target : Nat → Nat) (f : IndexFilter T) : Option (IndexFilter T) :=
  if f.set.size = 0 then some f
  else do
    let index : Int := target f.set.size
    let percentileIt ← f.set.advance f.percentileIt (index - f.percentileIndex)
    return ⟨f.set, percentileIt, index⟩

/-- `PercentileFilter::insert`. -/
def insert (target : Nat → Nat) (f : IndexFilter T) (value : T) : Option (IndexFilter T) :=
  let set := f.set.insert value
  if set.size = 1 then updatePercentileIterator target ⟨set, set.begin, 0⟩
  else do
    let current ← set.deref f.percentileIt
    let index := if value < current then f.percentileIndex + 1 else f.percentileIndex
    updatePercentileIterator target ⟨set, f.percentileIt, index⟩

/-- `PercentileFilter::erase`. -/
def erase (target : Nat → Nat) (f : IndexFilter T) (value : T) : Option (Bool × IndexFilter T) :=
  let it := f.set.lowerBound value
  if it = none then some (false, f)
  else do
    let found ← f.set.deref it
    if found ≠ value then return (false, f)
    else
      let (set, next) ← f.set.erase it
      if it = f.percentileIt then
        let f ← updatePercentileIterator target ⟨set, next, f.percentileIndex⟩
        return (true, f)
      else
        -- The iterator is read after the erasure: it designates another element.
        let current ← set.deref f.percentileIt
        let index := if value ≤ current then f.percentileIndex - 1 else f.percentileIndex
        let f ← updatePercentileIterator target ⟨set, f.percentileIt, index⟩
        return (true, f)

/-- `PercentileFilter::get_percentile_value`. -/
def getPercentileValue [Zero T] (f : IndexFilter T) : Option T :=
  if f.set.size = 0 then some 0 else f.set.deref f.percentileIt

/-- `PercentileFilter::reset`. -/
def reset (f : IndexFilter T) : IndexFilter T := ⟨f.set.clear, f.set.clear.begin, 0⟩

-----------------------------------------------------------------------------------------
-- The settled filter
-----------------------------------------------------------------------------------------

/-- The index that is kept for a number of elements: the first one while there are none. -/
def place (target : Nat → Nat) (size : Nat) : Nat := if size = 0 then 0 else target size

/-- The filter of a set with its iterator and index at their place. -/
def settled (target : Nat → Nat) (set : OrderedMultiset T) : IndexFilter T where
  set
  percentileIt := set.iteratorAt (place target set.size)
  percentileIndex := place target set.size

@[simp]
theorem settled_set (target : Nat → Nat) (set : OrderedMultiset T)
    : (settled target set).set = set := rfl

@[simp]
theorem settled_percentileIt (target : Nat → Nat) (set : OrderedMultiset T)
    : (settled target set).percentileIt = set.iteratorAt (place target set.size) := rfl

@[simp]
theorem settled_percentileIndex (target : Nat → Nat) (set : OrderedMultiset T)
    : (settled target set).percentileIndex = place target set.size := rfl

variable {target : Nat → Nat}

/-- The targets of the sets of up to `limit` elements are in these sets. -/
def InRange (target : Nat → Nat) (limit : Nat) : Prop :=
  ∀ size, 0 < size → size ≤ limit → target size < size

theorem place_of_ne_zero {size : Nat} (filled : size ≠ 0) : place target size = target size :=
  if_neg filled

theorem construct_settled : (construct : IndexFilter T) = settled target .empty := rfl

theorem reset_settled (set : OrderedMultiset T)
    : (settled target set).reset = settled target set.clear := rfl

/-- A filter whose index is that of its iterator settles. -/
theorem updatePercentileIterator_settles {limit : Nat} (inRange : InRange target limit)
    {set : OrderedMultiset T} (fits : set.size ≤ limit) {i : Nat} (bound : i ≤ set.size)
    {it : Option Nat} (designates : set.iteratorAt i = it) {index : Int} (tracks : index = i)
    : updatePercentileIterator target ⟨set, it, index⟩ = some (settled target set) := by
  subst it index
  by_cases isEmpty : set.size = 0
  · have first : i = 0 := by omega
    simp [updatePercentileIterator, isEmpty, settled, place, first]
  · have inside := inRange set.size (Nat.pos_of_ne_zero isEmpty) fits
    simp [updatePercentileIterator, isEmpty, settled, place,
      set.advance_iteratorAt bound (Nat.le_of_lt inside)]

/-- The value of a settled filter is that of the target index. -/
theorem getPercentileValue_settled [Zero T] {set : OrderedMultiset T} (nonempty : 0 < set.size)
    : (settled target set).getPercentileValue = set.values[target set.size]? := by
  have filled : set.size ≠ 0 := Nat.ne_of_gt nonempty
  simp [getPercentileValue, settled, place, filled, set.deref_iteratorAt]

-----------------------------------------------------------------------------------------
-- Insertion and erasure keep a filter settled
-----------------------------------------------------------------------------------------

/-- Insertion keeps the filter settled. The index goes up exactly when the value is inserted
before the element under the iterator.
-/
theorem insert_settled {limit : Nat} (inRange : InRange target limit)
    {set : OrderedMultiset T} (fits : set.size < limit) (value : T)
    : (settled target set).insert target value = some (settled target (set.insert value)) := by
  have enough : (set.insert value).size ≤ limit := by simpa using Nat.succ_le_of_lt fits
  by_cases isEmpty : set.size = 0
  · have single : (set.insert value).size = 1 := by simpa using isEmpty
    simp only [insert, settled_set, single, ↓reduceIte]
    exact updatePercentileIterator_settles inRange enough (Nat.zero_le _) rfl rfl
  · have inside := inRange set.size (Nat.pos_of_ne_zero isEmpty) (Nat.le_of_lt fits)
    have several : (set.insert value).size ≠ 1 := by simpa using isEmpty
    simp only [insert, settled_set, settled_percentileIt,
      settled_percentileIndex, several, ↓reduceIte]
    rw [place_of_ne_zero isEmpty]
    generalize target set.size = i at inside ⊢
    have index : i < set.nodes.length := inside
    obtain ⟨current, -⟩ := set.iterator_of_getElem? (List.getElem?_eq_getElem index)
    obtain ⟨moved, designated⟩ :=
      (set.insert value).iterator_of_getElem? (set.getElem?_insert value index)
    rw [current, designated]
    simp only [Option.bind_eq_bind, Option.bind_some]
    refine updatePercentileIterator_settles inRange enough ?_ moved ?_
    · rw [OrderedMultiset.size_insert]
      split_ifs <;> omega
    · split_ifs <;> simp

/-- Erasing a value that is present keeps the filter settled. The element under the iterator is
moved back exactly when the erased element stood before it; where it is the erased one, the
iterator goes to the element that takes its index, possibly the end.
-/
theorem erase_settled {limit : Nat} (inRange : InRange target limit)
    {set : OrderedMultiset T} (fits : set.size ≤ limit) {value : T} (present : value ∈ set.values)
    : (settled target set).erase target value
      = some (true, settled target (set.eraseAt (set.lowerIndex value))) := by
  have found := set.getElem?_lowerIndex present
  have lower : set.lowerIndex value < set.size := by
    have := (List.getElem?_eq_some_iff.mp found).1
    simpa [OrderedMultiset.values, OrderedMultiset.size] using this
  have smaller := set.size_eraseAt lower
  have enough : (set.eraseAt (set.lowerIndex value)).size ≤ limit := by omega
  have inside := inRange set.size (by omega) fits
  have notEnd : set.lowerBound value ≠ none := by
    intro atEnd
    have designated := set.deref_iteratorAt (set.lowerIndex value)
    rw [found, ← OrderedMultiset.lowerBound, atEnd] at designated
    simp [OrderedMultiset.deref] at designated
  simp only [erase, settled_set, settled_percentileIt, settled_percentileIndex, notEnd, ↓reduceIte,
    place_of_ne_zero (by omega : set.size ≠ 0)]
  simp only [OrderedMultiset.lowerBound, set.deref_iteratorAt, found, set.erase_iteratorAt lower,
    Option.bind_eq_bind, Option.bind_some, ne_eq, not_true_eq_false, ↓reduceIte]
  have sameIterator := set.iteratorAt_inj (Nat.le_of_lt lower) (Nat.le_of_lt inside)
  by_cases same : set.lowerIndex value = target set.size
  · simp only [sameIterator.mpr same, ↓reduceIte]
    rw [← same, updatePercentileIterator_settles inRange enough (by omega) rfl rfl]
    rfl
  · simp only [mt sameIterator.mp same, ↓reduceIte]
    generalize target set.size = i at inside same ⊢
    have index : i < set.nodes.length := inside
    have ahead := set.lowerIndex_le_iff value index
    obtain ⟨current, -⟩ := set.iterator_of_getElem? (List.getElem?_eq_getElem index)
    obtain ⟨moved, designated⟩ := OrderedMultiset.iterator_of_getElem? _
      (set.getElem?_eraseAt_lowerIndex value index same)
    rw [current, designated, Option.bind_some]
    rw [updatePercentileIterator_settles inRange enough ?_ moved ?_]
    · rfl
    · split_ifs <;> omega
    · split_ifs with reached
      · have := ahead.mpr reached
        omega
      · rfl

/-- A value that is not there is not erased, and nothing changes. -/
theorem erase_absent (f : IndexFilter T) {value : T} (absent : value ∉ f.set.values)
    : f.erase target value = some (false, f) := by
  rw [erase]
  by_cases atEnd : f.set.lowerBound value = none
  · rw [if_pos atEnd]
  · rw [if_neg atEnd, OrderedMultiset.lowerBound, f.set.deref_iteratorAt]
    cases found : f.set.values[f.set.lowerIndex value]? with
    | none =>
        rw [OrderedMultiset.values, List.getElem?_map, Option.map_eq_none_iff] at found
        simp [OrderedMultiset.lowerBound, OrderedMultiset.iteratorAt, found] at atEnd
    | some other =>
        have member := List.mem_of_getElem? found
        have differs : other ≠ value := fun same => absent (same ▸ member)
        simp only [Option.bind_eq_bind, Option.bind_some, if_pos differs, Option.pure_def]

-----------------------------------------------------------------------------------------
-- Runs of calls
-----------------------------------------------------------------------------------------

end IndexFilter

/-- A call that changes a filter. -/
inductive SetCall (T : Type) where
  | insert (value : T)
  | erase (value : T)
  | reset

/-- The values that a filter is to hold after a call. -/
def SetCall.contents (held : Multiset T) : SetCall T → Multiset T
  | .insert value => value ::ₘ held
  | .erase value => held.erase value
  | .reset => 0

/-- What a call is to return: an erasure, whether the value was there. -/
def SetCall.reply (held : Multiset T) : SetCall T → Option Bool
  | .erase value => some (decide (value ∈ held))
  | _ => none

def contentsAfter (calls : List (SetCall T)) : Multiset T := runFrom SetCall.contents 0 calls

def replies : Multiset T → List (SetCall T) → List (Option Bool)
  | _, [] => []
  | held, call :: rest => call.reply held :: replies (call.contents held) rest

namespace IndexFilter

def perform (target : Nat → Nat) (f : IndexFilter T)
    : SetCall T → Option (Option Bool × IndexFilter T)
  | .insert value => do
      let f ← f.insert target value
      return (none, f)
  | .erase value => do
      let (erased, f) ← f.erase target value
      return (some erased, f)
  | .reset => some (none, f.reset)

def performAll (target : Nat → Nat)
    : IndexFilter T → List (SetCall T) → Option (List (Option Bool) × IndexFilter T)
  | f, [] => some ([], f)
  | f, call :: rest => do
      let (reply, f) ← f.perform target call
      let (replies, f) ← performAll target f rest
      return (reply :: replies, f)

/-- A call keeps the filter settled, and returns and holds what it is to. -/
theorem perform_settled (inRange : ∀ limit, InRange target limit) (set : OrderedMultiset T)
    (call : SetCall T)
    : ∃ after,
        (settled target set).perform target call
          = some (call.reply (set.values : Multiset T), settled target after)
        ∧ (after.values : Multiset T) = call.contents (set.values : Multiset T) := by
  cases call with
  | insert value =>
      refine ⟨set.insert value, ?_, Multiset.coe_eq_coe.mpr (set.values_insert value)⟩
      rw [perform, insert_settled (inRange (set.size + 1)) (Nat.lt_succ_self _)]
      rfl
  | erase value =>
      by_cases present : value ∈ set.values
      · refine ⟨set.eraseAt (set.lowerIndex value), ?_, ?_⟩
        · rw [perform, erase_settled (inRange set.size) (Nat.le_refl _) present]
          simp [SetCall.reply, present]
        · have removed := Multiset.coe_eq_coe.mpr (set.values_eraseAt_lowerIndex present)
          rw [SetCall.contents, ← removed, ← Multiset.cons_coe, Multiset.erase_cons_head]
      · refine ⟨set, ?_, ?_⟩
        · rw [perform, erase_absent _ present]
          simp [SetCall.reply, present]
        · rw [SetCall.contents, Multiset.erase_of_notMem present]
  | reset =>
      refine ⟨set.clear, ?_, rfl⟩
      rw [perform, reset_settled]
      rfl

/-- Every run of calls keeps the filter settled, by induction on the calls. -/
theorem performAll_settled (inRange : ∀ limit, InRange target limit) (set : OrderedMultiset T)
    (calls : List (SetCall T))
    : ∃ after,
        (settled target set).performAll target calls
          = some (replies (set.values : Multiset T) calls, settled target after)
        ∧ (after.values : Multiset T) = runFrom SetCall.contents (set.values : Multiset T) calls := by
  induction calls generalizing set with
  | nil => exact ⟨set, rfl, rfl⟩
  | cons call rest ih =>
      obtain ⟨next, performs, holds⟩ := perform_settled inRange set call
      obtain ⟨after, performsRest, holdsRest⟩ := ih next
      refine ⟨after, ?_, ?_⟩
      · rw [performAll, performs]
        simp only [Option.bind_eq_bind, Option.bind_some, performsRest, Option.pure_def, holds,
          replies]
      · rw [holdsRest, holds, runFrom_cons]

/-- A set holds its values in their order. -/
theorem values_eq_sort {set : OrderedMultiset T} {held : Multiset T}
    (holds : (set.values : Multiset T) = held)
    : set.values = held.sort (· ≤ ·) := by
  have sorted : set.values.Pairwise (· ≤ ·) := List.pairwise_map.mpr set.sorted
  have same : set.values.Perm (held.sort (· ≤ ·)) := by
    rw [← Multiset.coe_eq_coe, Multiset.sort_eq, holds]
  exact same.eq_of_pairwise' sorted (Multiset.pairwise_sort held (· ≤ ·))

/-- After every run of calls on a new filter, the values are those inserted and not erased, the index
is the one for their number, the iterator is at it, and the value returned is the one there in order.
No iterator was used outside of the container, and each erasure returned whether the value was there.
-/
theorem performAll_target [Zero T] (inRange : ∀ n, 1 ≤ n → target n ≤ n - 1)
    (calls : List (SetCall T))
    : ∃ f,
        performAll target construct calls = some (replies 0 calls, f)
        ∧ f.set.values = (contentsAfter calls).sort (· ≤ ·)
        ∧ (contentsAfter calls ≠ 0
          → f.percentileIndex = target (contentsAfter calls).card
            ∧ f.percentileIt = f.set.iteratorAt (target (contentsAfter calls).card)
            ∧ ∃ value,
                ((contentsAfter calls).sort (· ≤ ·))[target (contentsAfter calls).card]? = some value
                ∧ f.getPercentileValue = some value) := by
  have inside (limit : Nat) : InRange target limit := by
    intro size positive _
    have := inRange size positive
    omega
  obtain ⟨after, performs, holds⟩ := performAll_settled inside .empty calls
  rw [← construct_settled] at performs
  have values : after.values = (contentsAfter calls).sort (· ≤ ·) := values_eq_sort holds
  have size : after.size = (contentsAfter calls).card := by
    have lengths := congrArg List.length values
    rwa [Multiset.length_sort, OrderedMultiset.values, List.length_map] at lengths
  refine ⟨settled target after, performs, values, ?_⟩
  intro filled
  have positive : 0 < after.size := by
    rw [size]
    exact Multiset.card_pos.mpr filled
  have located : target after.size < after.values.length := by
    have := inside after.size after.size positive (Nat.le_refl _)
    rwa [OrderedMultiset.values, List.length_map]
  rw [← size, settled_percentileIndex, settled_percentileIt, place_of_ne_zero (by omega),
    getPercentileValue_settled positive]
  refine ⟨rfl, rfl, after.values[target after.size], ?_, List.getElem?_eq_getElem located⟩
  rw [← values]
  exact List.getElem?_eq_getElem located

/-- The upper median of values that come, go and come again. -/
theorem performAll_target_median
    : ∃ f,
        performAll (· / 2) construct
            [.insert 5, .insert 3, .erase 3, .erase 4, .reset, .insert 7, .insert 7, .insert (2 : Int)]
          = some ([none, none, some true, some false, none, none, none, none], f)
        ∧ f.percentileIndex = 1 := by
  obtain ⟨f, performs, -, placed⟩ := @performAll_target Int _ (· / 2) _ (by intro n _; omega)
    [.insert 5, .insert 3, .erase 3, .erase 4, .reset, .insert 7, .insert 7, .insert (2 : Int)]
  exact ⟨f, performs, (placed (by decide)).1⟩

end IndexFilter

end RtcBase.Filters

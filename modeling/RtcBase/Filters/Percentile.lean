import RtcBase.Filters.IndexFilter
import RtcBase.Library.BinaryFloat

/-! `PercentileFilter`: a multiset with an iterator that is kept at the element of the percentile. It
is the filter for the index that the percentile's `float` gives for each number of elements. `none`
is an iterator used where it designates nothing.
-/

namespace RtcBase.Filters

open Library

variable {T : Type} [LinearOrder T]

/-- The significand of a `float` has 24 bits. -/
def floatPrecision : Nat := 24

/-- The fields of `PercentileFilter<T>`. -/
structure PercentileFilter (T : Type) [LinearOrder T] where
  percentile : BinaryFloat
  set : OrderedMultiset T
  percentileIt : Option Nat
  percentileIndex : Int

/-- The index that `update_percentile_iterator` computes for a set of the given size. -/
def targetIndex (percentile : BinaryFloat) (size : Nat) : Nat :=
  (percentile.mul floatPrecision (.ofNat floatPrecision (size - 1))).truncate

namespace PercentileFilter

def construct (percentile : BinaryFloat) : PercentileFilter T where
  percentile
  set := .empty
  percentileIt := OrderedMultiset.begin (.empty : OrderedMultiset T)
  percentileIndex := 0

/-- `PercentileFilter::update_percentile_iterator`. -/
def updatePercentileIterator (f : PercentileFilter T) : Option (PercentileFilter T) :=
  if f.set.size = 0 then some f
  else do
    let index : Int := targetIndex f.percentile f.set.size
    let percentileIt ← f.set.advance f.percentileIt (index - f.percentileIndex)
    return { f with percentileIt := percentileIt, percentileIndex := index }

/-- `PercentileFilter::insert`. -/
def insert (f : PercentileFilter T) (value : T) : Option (PercentileFilter T) :=
  let set := f.set.insert value
  if set.size = 1 then
    updatePercentileIterator ⟨f.percentile, set, set.begin, 0⟩
  else do
    let current ← set.deref f.percentileIt
    let index := if value < current then f.percentileIndex + 1 else f.percentileIndex
    updatePercentileIterator ⟨f.percentile, set, f.percentileIt, index⟩

/-- `PercentileFilter::erase`. -/
def erase (f : PercentileFilter T) (value : T) : Option (Bool × PercentileFilter T) :=
  let it := f.set.lowerBound value
  if it = none then some (false, f)
  else do
    let found ← f.set.deref it
    if found ≠ value then return (false, f)
    else
      let (set, next) ← f.set.erase it
      if it = f.percentileIt then
        let f ← updatePercentileIterator ⟨f.percentile, set, next, f.percentileIndex⟩
        return (true, f)
      else
        -- The iterator is read after the erasure: it designates another element.
        let current ← set.deref f.percentileIt
        let index := if value ≤ current then f.percentileIndex - 1 else f.percentileIndex
        let f ← updatePercentileIterator ⟨f.percentile, set, f.percentileIt, index⟩
        return (true, f)

/-- `PercentileFilter::get_percentile_value`. -/
def getPercentileValue [Zero T] (f : PercentileFilter T) : Option T :=
  if f.set.size = 0 then some 0 else f.set.deref f.percentileIt

/-- `PercentileFilter::reset`. -/
def reset (f : PercentileFilter T) : PercentileFilter T :=
  { f with set := f.set.clear, percentileIt := f.set.clear.begin, percentileIndex := 0 }

-----------------------------------------------------------------------------------------
-- The filter of the percentile's index
-----------------------------------------------------------------------------------------

/-- The filter for the index of a percentile. -/
def ofIndexFilter (percentile : BinaryFloat) (f : IndexFilter T) : PercentileFilter T :=
  ⟨percentile, f.set, f.percentileIt, f.percentileIndex⟩

variable {percentile : BinaryFloat}

theorem updatePercentileIterator_ofIndexFilter (f : IndexFilter T)
    : updatePercentileIterator (ofIndexFilter percentile f)
      = (f.updatePercentileIterator (targetIndex percentile)).map (ofIndexFilter percentile) := by
  simp only [updatePercentileIterator, IndexFilter.updatePercentileIterator, ofIndexFilter]
  by_cases isEmpty : f.set.size = 0
  · simp only [isEmpty, ↓reduceIte]
    rfl
  · simp only [isEmpty, ↓reduceIte]
    cases f.set.advance f.percentileIt (targetIndex percentile f.set.size - f.percentileIndex) <;> rfl

theorem insert_ofIndexFilter (f : IndexFilter T) (value : T)
    : (ofIndexFilter percentile f).insert value
      = (f.insert (targetIndex percentile) value).map (ofIndexFilter percentile) := by
  simp only [insert, IndexFilter.insert, ofIndexFilter]
  by_cases single : (f.set.insert value).size = 1
  · simp only [single, ↓reduceIte]
    exact updatePercentileIterator_ofIndexFilter ⟨f.set.insert value, (f.set.insert value).begin, 0⟩
  · simp only [single, ↓reduceIte]
    cases (f.set.insert value).deref f.percentileIt with
    | none => rfl
    | some current =>
        exact updatePercentileIterator_ofIndexFilter ⟨f.set.insert value, f.percentileIt,
          if value < current then f.percentileIndex + 1 else f.percentileIndex⟩

theorem erase_ofIndexFilter (f : IndexFilter T) (value : T)
    : (ofIndexFilter percentile f).erase value
      = (f.erase (targetIndex percentile) value).map (Prod.map id (ofIndexFilter percentile)) := by
  have erased (after : IndexFilter T)
      : (updatePercentileIterator (ofIndexFilter percentile after)).bind (fun f => some (true, f))
        = ((after.updatePercentileIterator (targetIndex percentile)).bind
            (fun f => some (true, f))).map (Prod.map id (ofIndexFilter percentile)) := by
    rw [updatePercentileIterator_ofIndexFilter]
    cases after.updatePercentileIterator (targetIndex percentile) <;> rfl
  simp only [erase, IndexFilter.erase, ofIndexFilter]
  by_cases atEnd : f.set.lowerBound value = none
  · simp only [atEnd, ↓reduceIte]
    rfl
  · simp only [atEnd, ↓reduceIte]
    cases f.set.deref (f.set.lowerBound value) with
    | none => rfl
    | some found =>
        by_cases same : found = value
        · simp only [same, ne_eq, not_true_eq_false, ↓reduceIte, Option.bind_eq_bind, Option.bind_some,
            Option.pure_def]
          cases f.set.erase (f.set.lowerBound value) with
          | none => rfl
          | some result =>
              by_cases designated : f.set.lowerBound value = f.percentileIt
              · simp only [designated, ↓reduceIte, Option.bind_some]
                exact erased ⟨result.1, result.2, f.percentileIndex⟩
              · simp only [designated, ↓reduceIte, Option.bind_some]
                cases result.1.deref f.percentileIt with
                | none => rfl
                | some current =>
                    exact erased ⟨result.1, f.percentileIt,
                      if value ≤ current then f.percentileIndex - 1 else f.percentileIndex⟩
        · simp only [same, ne_eq, not_false_eq_true, ↓reduceIte, Option.bind_eq_bind, Option.bind_some]
          rfl

-----------------------------------------------------------------------------------------
-- The settled filter
-----------------------------------------------------------------------------------------

/-- The filter of a set with its iterator and index at the target. -/
def settled (percentile : BinaryFloat) (set : OrderedMultiset T) : PercentileFilter T where
  percentile
  set
  percentileIt := set.iteratorAt (targetIndex percentile set.size)
  percentileIndex := targetIndex percentile set.size

end PercentileFilter

/-- The target of a set of at most one element is the first index. -/
theorem targetIndex_of_le_one (percentile : BinaryFloat) {size : Nat} (small : size ≤ 1)
    : targetIndex percentile size = 0 := by
  have none : size - 1 = 0 := by omega
  simp [targetIndex, none, BinaryFloat.mul, BinaryFloat.ofNat, BinaryFloat.round,
    BinaryFloat.truncate, Nat.size_zero]

namespace PercentileFilter

variable {percentile : BinaryFloat}

/-- The targets of the sets of up to `limit` elements are in these sets. -/
def InRange (percentile : BinaryFloat) (limit : Nat) : Prop :=
  ∀ size, 0 < size → size ≤ limit → targetIndex percentile size < size

/-- A settled filter is settled at the percentile's index. -/
theorem settled_eq (percentile : BinaryFloat) (set : OrderedMultiset T)
    : settled percentile set
      = ofIndexFilter percentile (IndexFilter.settled (targetIndex percentile) set) := by
  have index
      : IndexFilter.place (targetIndex percentile) set.size = targetIndex percentile set.size := by
    rw [IndexFilter.place]
    split
    · rename_i isEmpty
      rw [isEmpty, targetIndex_of_le_one percentile (by omega)]
    · rfl
  rw [IndexFilter.settled, index]
  rfl

theorem construct_settled
    : (construct percentile : PercentileFilter T) = settled percentile .empty := by
  rw [settled_eq]
  rfl

theorem reset_settled (set : OrderedMultiset T)
    : (settled percentile set).reset = settled percentile set.clear := by
  rw [settled_eq, settled_eq]
  rfl

/-- The percentile value of a settled filter is the value of the target index. -/
theorem getPercentileValue_settled [Zero T] {set : OrderedMultiset T} (nonempty : 0 < set.size)
    : (settled percentile set).getPercentileValue
      = set.values[targetIndex percentile set.size]? := by
  rw [settled_eq]
  exact IndexFilter.getPercentileValue_settled nonempty

/-- Insertion keeps the filter settled. -/
theorem insert_settled {limit : Nat} (inRange : InRange percentile limit)
    {set : OrderedMultiset T} (fits : set.size < limit) (value : T)
    : (settled percentile set).insert value = some (settled percentile (set.insert value)) := by
  rw [settled_eq, settled_eq, insert_ofIndexFilter, IndexFilter.insert_settled inRange fits]
  rfl

/-- Erasing a value that is present keeps the filter settled. -/
theorem erase_settled {limit : Nat} (inRange : InRange percentile limit)
    {set : OrderedMultiset T} (fits : set.size ≤ limit) {value : T} (present : value ∈ set.values)
    : (settled percentile set).erase value
      = some (true, settled percentile (set.eraseAt (set.lowerIndex value))) := by
  rw [settled_eq, settled_eq, erase_ofIndexFilter, IndexFilter.erase_settled inRange fits present]
  rfl

end PercentileFilter

end RtcBase.Filters

import RtcBase.Filters.Percentile
import RtcBase.Library.Runs
import Mathlib.Algebra.GroupWithZero.Nat
import Mathlib.Data.List.Perm.Basic
import Mathlib.Data.List.Sort

/-! `MovingMedianFilter` over whole runs of calls: the filtered value is the lower median of the
latest samples. The percentile filter is one sample too large for the time between the insertion
of the new sample and the erasure of the oldest one.
-/

namespace RtcBase.Filters

open Library

variable {T : Type}

-----------------------------------------------------------------------------------------
-- What the filter is for
-----------------------------------------------------------------------------------------

/-- A call that changes the filter. -/
inductive FilterCall (T : Type) where
  | insert (value : T)
  | reset

/-- The values inserted since the last reset, after one more call. -/
def collect (values : List T) : FilterCall T → List T
  | .insert value => values ++ [value]
  | .reset => []

/-- The values inserted since construction or the last reset. -/
def inserted (calls : List (FilterCall T)) : List T := calls.foldl collect []

/-- The last `size` values, or all of them where there are fewer. -/
def latest (size : Nat) (values : List T) : List T := values.drop (values.length - size)

@[simp]
theorem length_latest (size : Nat) (values : List T)
    : (latest size values).length = min values.length size := by
  simp only [latest, List.length_drop]
  omega

/-- A window with room takes one more value; a full one loses its oldest value for it. -/
theorem latest_append (size : Nat) (values : List T) (value : T)
    : latest size (values ++ [value])
      = if size < (latest size values).length + 1 then (latest size values ++ [value]).tail
        else latest size values ++ [value] := by
  have joined : latest size values ++ [value]
      = (values ++ [value]).drop (values.length - size) := by
    rw [List.drop_append_of_le_length (Nat.sub_le _ _), latest]
  rw [joined, length_latest, latest, List.length_append, List.length_singleton]
  split_ifs with full
  · have start : values.length + 1 - size = values.length - size + 1 := by omega
    rw [List.tail_drop, start]
  · have start : values.length + 1 - size = values.length - size := by omega
    rw [start]

-----------------------------------------------------------------------------------------
-- The filter
-----------------------------------------------------------------------------------------

variable [LinearOrder T]

/-- The fields of `MovingMedianFilter<T>`. -/
structure MovingMedianFilter (T : Type) [LinearOrder T] where
  percentileFilter : PercentileFilter T
  samples : List T
  samplesStored : Nat
  windowSize : Nat

namespace MovingMedianFilter

def construct (windowSize : Nat) : MovingMedianFilter T :=
  ⟨.construct .half, [], 0, windowSize⟩

/-- `MovingMedianFilter::insert`. -/
def insert (f : MovingMedianFilter T) (value : T) : Option (MovingMedianFilter T) := do
  let percentileFilter ← f.percentileFilter.insert value
  let samples := f.samples ++ [value]
  let samplesStored := f.samplesStored + 1
  if samplesStored > f.windowSize then
    let front ← samples.head?
    let (_, percentileFilter) ← percentileFilter.erase front
    return ⟨percentileFilter, samples.tail, samplesStored - 1, f.windowSize⟩
  else return ⟨percentileFilter, samples, samplesStored, f.windowSize⟩

/-- `MovingMedianFilter::get_filtered_value`. -/
def getFilteredValue [Zero T] (f : MovingMedianFilter T) : Option T :=
  f.percentileFilter.getPercentileValue

/-- `MovingMedianFilter::reset`. -/
def reset (f : MovingMedianFilter T) : MovingMedianFilter T :=
  { f with percentileFilter := f.percentileFilter.reset, samples := [], samplesStored := 0 }

end MovingMedianFilter

def MovingMedianFilter.perform (f : MovingMedianFilter T)
    : FilterCall T → Option (MovingMedianFilter T)
  | .insert value => f.insert value
  | .reset => some f.reset

/-- The calls on one filter in turn. -/
def MovingMedianFilter.performAll (f : MovingMedianFilter T) (calls : List (FilterCall T))
    : Option (MovingMedianFilter T) :=
  calls.foldlM MovingMedianFilter.perform f

-----------------------------------------------------------------------------------------
-- The filtered value
-----------------------------------------------------------------------------------------

/-- Halving is exact for the sets that the filter holds. -/
theorem targetIndex_half {size : Nat} (small : size ≤ 2 ^ 24)
    : targetIndex .half size = (size - 1) / 2 := by
  have fits : size - 1 < 2 ^ floatPrecision := by
    simp only [floatPrecision]
    omega
  exact BinaryFloat.truncate_half_mul fits

theorem half_inRange : PercentileFilter.InRange .half (2 ^ 24) := by
  intro size positive small
  rw [targetIndex_half small]
  omega

namespace MovingMedianFilter

/-- The filter is settled on the latest of the values inserted. -/
structure Holds (f : MovingMedianFilter T) (size : Nat) (values : List T) : Prop where
  windowSize : f.windowSize = size
  samples : f.samples = latest size values
  samplesStored : f.samplesStored = f.samples.length
  filtered : ∃ set, f.percentileFilter = .settled .half set ∧ set.values.Perm f.samples

theorem construct_holds (size : Nat) : (construct size : MovingMedianFilter T).Holds size [] where
  windowSize := rfl
  samples := by simp [construct, latest]
  samplesStored := rfl
  filtered := ⟨.empty, PercentileFilter.construct_settled, List.Perm.refl _⟩

theorem Holds.reset {f : MovingMedianFilter T} {size : Nat} {values : List T}
    (holds : f.Holds size values)
    : f.reset.Holds size [] := by
  obtain ⟨set, settled, -⟩ := holds.filtered
  have window : f.reset.samples = latest size [] := by simp [MovingMedianFilter.reset, latest]
  refine ⟨holds.windowSize, window, rfl, set.clear, ?_, List.Perm.refl _⟩
  rw [MovingMedianFilter.reset, settled]
  exact PercentileFilter.reset_settled set

/-- Erasing one of the oldest sample's equals from the set leaves the younger samples. -/
theorem erased_perm {set : OrderedMultiset T} {front : T} {rest : List T}
    (same : set.values.Perm (front :: rest))
    : (set.eraseAt (set.lowerIndex front)).values.Perm rest := by
  have present := same.mem_iff.mpr List.mem_cons_self
  exact ((set.values_eraseAt_lowerIndex present).trans same).cons_inv

/-- An insertion keeps the filter on the latest values. -/
theorem Holds.insert {f : MovingMedianFilter T} {size : Nat} {values : List T}
    (holds : f.Holds size values) (small : size < 2 ^ 24) (value : T)
    : ∃ next, f.insert value = some next ∧ next.Holds size (values ++ [value]) := by
  obtain ⟨set, settled, same⟩ := holds.filtered
  have window : f.samples.length ≤ size := by simp [holds.samples]
  have stored : set.size = f.samples.length := by
    simpa [OrderedMultiset.values, OrderedMultiset.size] using same.length_eq
  have grown := set.size_insert value
  have added : (set.insert value).values.Perm (f.samples ++ [value]) :=
    (set.values_insert value).trans ((same.cons value).trans (List.perm_append_singleton _ _).symm)
  have accepted : f.percentileFilter.insert value = some (.settled .half (set.insert value)) := by
    rw [settled]
    exact PercentileFilter.insert_settled half_inRange (by omega) value
  have moved := latest_append size values value
  rw [← holds.samples] at moved
  simp only [MovingMedianFilter.insert, accepted, Option.bind_eq_bind, Option.bind_some,
    holds.windowSize, holds.samplesStored, gt_iff_lt]
  split_ifs with full
  · rw [if_pos full] at moved
    obtain ⟨front, rest, shape⟩ := List.exists_cons_of_ne_nil (List.concat_ne_nil value f.samples)
    rw [shape] at added moved ⊢
    have erased := PercentileFilter.erase_settled half_inRange (by omega)
      (added.mem_iff.mpr List.mem_cons_self)
    simp only [List.head?_cons, Option.bind_some, erased, List.tail_cons]
    have length := congrArg List.length shape
    refine ⟨_, rfl, rfl, moved.symm, ?_, _, rfl, erased_perm added⟩
    simpa using length
  · rw [if_neg full] at moved
    exact ⟨_, rfl, rfl, moved.symm, by simp, _, rfl, added⟩

/-- Every call keeps the filter on the latest of the values inserted since the last reset. -/
theorem Holds.perform {f : MovingMedianFilter T} {size : Nat} {values : List T}
    (holds : f.Holds size values) (small : size < 2 ^ 24) (call : FilterCall T)
    : ∃ next, f.perform call = some next ∧ next.Holds size (collect values call) := by
  cases call with
  | insert value => exact holds.insert small value
  | reset => exact ⟨_, rfl, holds.reset⟩

/-- Every run of calls does. -/
theorem Holds.performAll {f : MovingMedianFilter T} {size : Nat} {values : List T}
    (holds : f.Holds size values) (small : size < 2 ^ 24) (calls : List (FilterCall T))
    : ∃ last, f.performAll calls = some last ∧ last.Holds size (calls.foldl collect values) := by
  refine @foldlM_invariant _ _ MovingMedianFilter.perform
    (fun done next => next.Holds size (done.foldl collect values)) calls f holds ?_
  intro done call rest next _ kept
  rw [List.foldl_append]
  exact kept.perform small call

/-- The filtered value is the lower median of the latest values. -/
theorem Holds.getFilteredValue [Zero T] {f : MovingMedianFilter T} {size : Nat} {values : List T}
    (holds : f.Holds size values) (small : size < 2 ^ 24) (nonempty : latest size values ≠ [])
    : f.getFilteredValue
      = ((latest size values).insertionSort (· ≤ ·))[((latest size values).length - 1) / 2]? := by
  obtain ⟨set, settled, same⟩ := holds.filtered
  rw [holds.samples] at same
  have stored : set.size = (latest size values).length := by
    simpa [OrderedMultiset.values, OrderedMultiset.size] using same.length_eq
  have sorted : set.values = (latest size values).insertionSort (· ≤ ·) := by
    have ascending : set.values.Pairwise (· ≤ ·) := List.pairwise_map.mpr set.sorted
    exact (same.trans (List.perm_insertionSort _ _).symm).eq_of_pairwise' ascending
      (List.pairwise_insertionSort _ _)
  have positive : 0 < set.size := by
    rw [stored]
    exact List.length_pos_iff.mpr nonempty
  have window : set.size ≤ size := by simp [stored]
  rw [MovingMedianFilter.getFilteredValue, settled,
    PercentileFilter.getPercentileValue_settled positive, targetIndex_half (by omega), sorted,
    stored]

end MovingMedianFilter

/-- After every sequence of insertions and resets with an insertion since the last reset, no
iterator has been misused and the filtered value is the lower median of the window, repeated
values included.
-/
theorem filtered_value_is_median [Zero T] {windowSize : Nat} (positive : 0 < windowSize)
    (small : windowSize < 2 ^ 24) (calls : List (FilterCall T)) (nonempty : inserted calls ≠ [])
    : ∃ f median,
        (MovingMedianFilter.construct windowSize).performAll calls = some f
        ∧ f.getFilteredValue = some median
        ∧ ((latest windowSize (inserted calls)).insertionSort (· ≤ ·))[
            (min (inserted calls).length windowSize - 1) / 2]? = some median := by
  obtain ⟨f, performed, holds⟩ :=
    (MovingMedianFilter.construct_holds windowSize).performAll small calls
  have length := length_latest windowSize (inserted calls)
  have count : 0 < (inserted calls).length := List.length_pos_iff.mpr nonempty
  have filled : latest windowSize (inserted calls) ≠ [] := by
    rw [← List.length_pos_iff, length]
    omega
  have value := holds.getFilteredValue small filled
  rw [← inserted, length] at value
  have inside : (min (inserted calls).length windowSize - 1) / 2
      < ((latest windowSize (inserted calls)).insertionSort (· ≤ ·)).length := by
    rw [List.length_insertionSort, length]
    omega
  refine ⟨f, _, performed, ?_, List.getElem?_eq_getElem inside⟩
  rw [value]
  exact List.getElem?_eq_getElem inside

/-- The fourth sample pushes the only large one out of a window of three. -/
theorem filtered_value_of_repeated_samples
    : ∃ f : MovingMedianFilter Nat,
        (MovingMedianFilter.construct 3).performAll
            [.insert 9, .reset, .insert 7, .insert 2, .insert 5, .insert 2] = some f
        ∧ f.getFilteredValue = some 2 := by
  obtain ⟨f, median, performed, value, sorted⟩ := filtered_value_is_median
    (show 0 < 3 by decide) (by decide)
    [.insert 9, .reset, .insert 7, .insert 2, .insert 5, .insert 2] (by simp [inserted, collect])
  have evaluated : median = 2 := by
    simpa [inserted, collect, latest] using sorted.symm
  exact ⟨f, performed, evaluated ▸ value⟩

end RtcBase.Filters

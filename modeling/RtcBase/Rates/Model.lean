import RtcBase.Library.Ring
import Mathlib.Data.BitVec

/-! The rate estimator: counters are kept in a circular buffer with one bucket per millisecond.
Reading or writing a bucket outside the buffer fails, so a run that ends has only used indices of
the buffer.
-/

namespace RtcBase.Rates

open Library

/-- A `size_t` of the build. -/
abbrev Size := BitVec 64

/-- One millisecond's counters. -/
structure Bucket where
  /-- Sum of all samples in this bucket. -/
  sum : Size := 0
  /-- Number of samples in this bucket. -/
  samples : Size := 0
deriving DecidableEq, Repr

/-- The estimator's fields; times and window sizes are milliseconds. -/
structure RateStatistics where
  buckets : List Bucket
  accumulatedCount : Size
  numSamples : Size
  oldestTime : Int
  oldestIndex : Nat
  scale : Float32
  maxWindowSizeMs : Int
  currentWindowSizeMs : Int

namespace RateStatistics

/-- A new estimator with the given maximum window. -/
def construct (windowSizeMs : Int) (scale : Float32) : RateStatistics where
  buckets := List.replicate windowSizeMs.toNat {}
  accumulatedCount := 0
  numSamples := 0
  oldestTime := -windowSizeMs
  oldestIndex := 0
  scale := scale
  maxWindowSizeMs := windowSizeMs
  currentWindowSizeMs := windowSizeMs

/-- Whether a sample has set the oldest time. -/
def isInitialized (stats : RateStatistics) : Bool :=
  stats.oldestTime != -stats.maxWindowSizeMs

/-- The index after the oldest one, wrapped at the end of the buffer. -/
def nextIndex (stats : RateStatistics) : Nat :=
  let next : Nat := (stats.oldestIndex + 1) % 2 ^ 32
  if (next : Int) ≥ stats.maxWindowSizeMs then 0 else next

/-- Empty the oldest bucket, whose contents are given, and move on to the next. -/
def dropBucket (stats : RateStatistics) (oldestBucket : Bucket) : RateStatistics :=
  { stats with
    accumulatedCount := stats.accumulatedCount - oldestBucket.sum
    numSamples := stats.numSamples - oldestBucket.samples
    buckets := stats.buckets.set stats.oldestIndex {}
    oldestIndex := stats.nextIndex
    oldestTime := stats.oldestTime + 1 }

/-- One round of the culling loop. -/
def dropOldest (stats : RateStatistics) : Option RateStatistics := do
  let oldestBucket ← stats.buckets[stats.oldestIndex]?
  some (stats.dropBucket oldestBucket)

/-- The culling loop. Each round moves the oldest time one millisecond on, so `rounds` is the
distance to the new oldest time and the loop is never cut short by it.
-/
def cull (newOldestTime : Int) : Nat → RateStatistics → Option RateStatistics
  | 0, stats => some stats
  | rounds + 1, stats =>
      if stats.numSamples > 0 ∧ stats.oldestTime < newOldestTime then do
        cull newOldestTime rounds (← stats.dropOldest)
      else some stats

/-- Drop what is older than the current window ending now. -/
def eraseOld (stats : RateStatistics) (nowMs : Int) : Option RateStatistics :=
  if !stats.isInitialized then some stats
  else
    let newOldestTime := nowMs - stats.currentWindowSizeMs + 1
    if newOldestTime ≤ stats.oldestTime then some stats
    else do
      let culled ← cull newOldestTime (newOldestTime - stats.oldestTime).toNat stats
      some { culled with oldestTime := newOldestTime }

/-- Back to the original state, with the maximum window. -/
def reset (stats : RateStatistics) : RateStatistics :=
  { stats with
    accumulatedCount := 0
    numSamples := 0
    oldestTime := -stats.maxWindowSizeMs
    oldestIndex := 0
    currentWindowSizeMs := stats.maxWindowSizeMs
    buckets := stats.buckets.map (fun _ => {}) }

/-- The bucket index of a time, in the `uint32_t` arithmetic of the source. -/
def bucketIndex (stats : RateStatistics) (nowMs : Int) : Nat :=
  let nowOffset : Nat := ((nowMs - stats.oldestTime) % 2 ^ 32).toNat
  let index : Nat := (stats.oldestIndex + nowOffset) % 2 ^ 32
  if (index : Int) ≥ stats.maxWindowSizeMs then
    (((index : Int) - stats.maxWindowSizeMs) % 2 ^ 32).toNat
  else index

/-- Add a sample to the bucket at an index, whose contents are given, and to the totals. -/
def fillBucket (stats : RateStatistics) (index : Nat) (bucket : Bucket) (count : Size)
    : RateStatistics :=
  { stats with
    buckets := stats.buckets.set index ⟨bucket.sum + count, bucket.samples + 1⟩
    accumulatedCount := stats.accumulatedCount + count
    numSamples := stats.numSamples + 1 }

/-- Count a sample in the bucket of its time. -/
def addSample (stats : RateStatistics) (count : Size) (nowMs : Int) : Option RateStatistics := do
  let index := stats.bucketIndex nowMs
  let bucket ← stats.buckets[index]?
  some (stats.fillBucket index bucket count)

/-- The first sample ever sets the oldest time. -/
def startWindow (stats : RateStatistics) (nowMs : Int) : RateStatistics :=
  if !stats.isInitialized then { stats with oldestTime := nowMs } else stats

/-- A new data point; one older than the oldest time is ignored. -/
def update (stats : RateStatistics) (count : Size) (nowMs : Int) : Option RateStatistics :=
  if nowMs < stats.oldestTime then some stats
  else do
    let erased ← stats.eraseOld nowMs
    (erased.startWindow nowMs).addSample count nowMs

/-- The rate over the window from the oldest time to now, once the window has been moved. -/
def rateOver (stats : RateStatistics) (nowMs : Int) : Option UInt32 :=
  let activeWindowSize := nowMs - stats.oldestTime + 1
  if stats.numSamples = 0
      ∨ activeWindowSize ≤ 1
      ∨ stats.numSamples ≤ 1 ∧ activeWindowSize < stats.currentWindowSizeMs then none
  else
    let scale := stats.scale / Float32.ofInt activeWindowSize
    some (Float32.ofNat stats.accumulatedCount.toNat * scale + 0.5).toUInt32

/-- The rate, empty while it is unavailable. The call moves the window. -/
def rate (stats : RateStatistics) (nowMs : Int) : Option (RateStatistics × Option UInt32) := do
  let erased ← stats.eraseOld nowMs
  some (erased, erased.rateOver nowMs)

/-- Change the averaging window; a size outside the maximum window is refused. -/
def setWindowSize (stats : RateStatistics) (windowSizeMs nowMs : Int)
    : Option (RateStatistics × Bool) :=
  if windowSizeMs ≤ 0 ∨ windowSizeMs > stats.maxWindowSizeMs then some (stats, false)
  else do
    let erased ← { stats with currentWindowSizeMs := windowSizeMs }.eraseOld nowMs
    some (erased, true)

-----------------------------------------------------------------------------------------
-- The shape of the buffer
-----------------------------------------------------------------------------------------

/-- The buffer has one bucket for each millisecond of the maximum window, which the 32-bit index
arithmetic can address, and the oldest index is one of them.
-/
structure WellShaped (stats : RateStatistics) : Prop where
  length : (stats.buckets.length : Int) = stats.maxWindowSizeMs
  short : stats.maxWindowSizeMs < 2 ^ 31
  index : stats.oldestIndex < stats.buckets.length

/-- The window sizes are the same. -/
structure SameSettings (stats moved : RateStatistics) : Prop where
  maximum : moved.maxWindowSizeMs = stats.maxWindowSizeMs
  size : moved.currentWindowSizeMs = stats.currentWindowSizeMs

theorem wellShaped_construct {maximum : Int} (positive : 1 ≤ maximum) (bounded : maximum < 2 ^ 31)
    (scale : Float32)
    : (construct maximum scale).WellShaped := by
  have length : (construct maximum scale).buckets.length = maximum.toNat := List.length_replicate
  constructor
  case length =>
    rw [length]
    exact Int.toNat_of_nonneg (by omega)
  case short => exact bounded
  case index =>
    rw [length]
    show 0 < _
    omega

namespace WellShaped

variable {stats : RateStatistics}

theorem at_time (shape : stats.WellShaped) (t : Int)
    : { stats with oldestTime := t }.WellShaped :=
  ⟨shape.length, shape.short, shape.index⟩

theorem resized (shape : stats.WellShaped) (size : Int)
    : { stats with currentWindowSizeMs := size }.WellShaped :=
  ⟨shape.length, shape.short, shape.index⟩

theorem reset (shape : stats.WellShaped) : stats.reset.WellShaped := by
  have length := shape.length
  have index := shape.index
  have cleared : stats.reset.buckets.length = stats.buckets.length := by
    simp [RateStatistics.reset]
  refine ⟨(congrArg Nat.cast cleared).trans length, shape.short, ?_⟩
  show 0 < _
  omega

/-- The oldest index moves one cell on around the ring. -/
theorem nextIndex_eq (shape : stats.WellShaped)
    : stats.nextIndex = ringIndex stats.buckets.length stats.oldestIndex 1 := by
  have length := shape.length
  have short := shape.short
  have index := shape.index
  have small : (stats.oldestIndex + 1) % 2 ^ 32 = stats.oldestIndex + 1 :=
    Nat.mod_eq_of_lt (by omega)
  simp only [nextIndex, small, ringIndex]
  split
  next wraps =>
    have last : stats.oldestIndex + 1 = stats.buckets.length := by omega
    rw [last, Nat.mod_self]
  next fits => exact (Nat.mod_eq_of_lt (by omega)).symm

theorem dropBucket (shape : stats.WellShaped) (bucket : Bucket)
    : (stats.dropBucket bucket).WellShaped := by
  have index := shape.index
  constructor
  case length => simpa [RateStatistics.dropBucket] using shape.length
  case short => exact shape.short
  case index =>
    simp only [RateStatistics.dropBucket, List.length_set, shape.nextIndex_eq]
    exact ringIndex_lt (by omega) _ _

theorem fillBucket (shape : stats.WellShaped) (index : Nat) (bucket : Bucket) (count : Size)
    : (stats.fillBucket index bucket count).WellShaped where
  length := by simpa [RateStatistics.fillBucket] using shape.length
  short := shape.short
  index := by simpa [RateStatistics.fillBucket] using shape.index

/-- The index computed for a time inside the buffer's span is that of its offset in the ring. -/
theorem bucketIndex_eq (shape : stats.WellShaped) {nowMs : Int} {offset : Nat}
    (since : nowMs = stats.oldestTime + offset) (inside : offset < stats.buckets.length)
    : stats.bucketIndex nowMs = ringIndex stats.buckets.length stats.oldestIndex offset := by
  have length := shape.length
  have short := shape.short
  have index := shape.index
  have offsetEq : ((nowMs - stats.oldestTime) % 2 ^ 32).toNat = offset := by omega
  have sumEq : (stats.oldestIndex + offset) % 2 ^ 32 = stats.oldestIndex + offset :=
    Nat.mod_eq_of_lt (by omega)
  rw [ringIndex_eq_ite index inside]
  simp only [bucketIndex, offsetEq, sumEq]
  split
  · rw [if_pos (by omega)]
    omega
  · rw [if_neg (by omega)]

end WellShaped

end RateStatistics

/-- The public operations of an estimator. -/
inductive Call
  | update (count : Size) (nowMs : Int)
  | rate (nowMs : Int)
  | setWindowSize (windowSizeMs nowMs : Int)
  | reset
deriving DecidableEq, Repr

/-- What a call returns to its caller. -/
inductive Outcome
  | none
  | rate (value : Option UInt32)
  | resized (accepted : Bool)
deriving DecidableEq, Repr

/-- One call. -/
def perform (stats : RateStatistics) : Call → Option (RateStatistics × Outcome)
  | .update count nowMs => do some (← stats.update count nowMs, .none)
  | .rate nowMs => do
      let (moved, value) ← stats.rate nowMs
      some (moved, .rate value)
  | .setWindowSize windowSizeMs nowMs => do
      let (resized, accepted) ← stats.setWindowSize windowSizeMs nowMs
      some (resized, .resized accepted)
  | .reset => some (stats.reset, .none)

/-- A sequence of calls, with what each of them returns. -/
def performAll : RateStatistics → List Call → Option (RateStatistics × List Outcome)
  | stats, [] => some (stats, [])
  | stats, call :: rest => do
      let (next, outcome) ← perform stats call
      let (final, outcomes) ← performAll next rest
      some (final, outcome :: outcomes)

/-- A run whose first call and remaining calls succeed succeeds. -/
theorem performAll_cons {stats next final : RateStatistics} {call : Call} {rest : List Call}
    {outcome : Outcome} {outcomes : List Outcome} (performs : perform stats call = some (next, outcome))
    (runs : performAll next rest = some (final, outcomes))
    : performAll stats (call :: rest) = some (final, outcome :: outcomes) := by
  rw [performAll, performs]
  simp only [Option.bind_eq_bind, Option.bind_some, runs]

/-- The time a call is made at. -/
def Call.time? : Call → Option Int
  | .update _ nowMs => some nowMs
  | .rate nowMs => some nowMs
  | .setWindowSize _ nowMs => some nowMs
  | .reset => Option.none

end RtcBase.Rates

import RtcBase.Library.Ring
import RtcBase.Library.Runs
import RtcBase.Rates.Model
import Mathlib.Algebra.BigOperators.Group.List.Basic

/-! The circular buffer against a naive sliding window that keeps the accepted samples themselves
and a low-water mark. Each bucket is the summary of the samples of its millisecond, so culling a
bucket is dropping the samples of the oldest millisecond.
-/

namespace RtcBase.Rates

open Library

-----------------------------------------------------------------------------------------
-- The naive window
-----------------------------------------------------------------------------------------

/-- An accepted data point. -/
structure Sample where
  time : Int
  count : Size
deriving DecidableEq, Repr

/-- The samples retained so far, the low-water mark they lie above, and the window sizes. The
mark is unset until the first sample.
-/
structure Window where
  maximum : Int
  size : Int
  low : Option Int
  samples : List Sample
deriving DecidableEq, Repr

namespace Window

/-- An empty window of the maximum size. -/
def initial (maximum : Int) : Window := ⟨maximum, maximum, none, []⟩

/-- Raise the low-water mark to the start of the window ending at `t`, and drop what is older. -/
def advance (window : Window) (t : Int) : Window :=
  match window.low with
  | none => window
  | some low =>
      let raised := max low (t - window.size + 1)
      { window with
        low := some raised
        samples := window.samples.filter (fun sample => raised ≤ sample.time) }

/-- Retain a sample that is not older than the low-water mark; the first one sets the mark. -/
def accept (window : Window) (count : Size) (t : Int) : Window :=
  match window.low with
  | none => { window with low := some t, samples := window.samples ++ [⟨t, count⟩] }
  | some low =>
      if t < low then window else { window with samples := window.samples ++ [⟨t, count⟩] }

/-- What one call does to the window. A refused size changes nothing. -/
def step (window : Window) : Call → Window
  | .update count t => (window.advance t).accept count t
  | .rate t => window.advance t
  | .setWindowSize size t =>
      if size ≤ 0 ∨ size > window.maximum then window else { window with size := size }.advance t
  | .reset => .initial window.maximum

/-- The window after a sequence of calls. -/
def after (maximum : Int) (calls : List Call) : Window := runFrom step (initial maximum) calls

/-- No rate can be given at time `t`: there is no sample, or the window is a single millisecond,
or a lone sample is in a window that has not grown to its full size.
-/
def Unavailable (window : Window) (t : Int) : Prop :=
  window.samples = []
  ∨ ∃ low ∈ window.low,
      t - low + 1 ≤ 1 ∨ window.samples.length ≤ 1 ∧ t - low + 1 < window.size

/-- Moving to a window that starts no later than the mark changes nothing, as long as no sample is
below the mark.
-/
theorem advance_of_le {window : Window} {low t : Int} (marked : window.low = some low)
    (above : ∀ sample ∈ window.samples, low ≤ sample.time) (early : t - window.size + 1 ≤ low)
    : window.advance t = window := by
  have kept : window.samples.filter (fun sample => low ≤ sample.time) = window.samples :=
    List.filter_eq_self.mpr (fun sample member => by simpa using above sample member)
  obtain ⟨maximum, size, mark, samples⟩ := window
  subst marked
  simp only [advance, max_eq_left early]
  rw [kept]

end Window

-----------------------------------------------------------------------------------------
-- Buckets as summaries of samples
-----------------------------------------------------------------------------------------

/-- The sum of the samples' counts, in `size_t` arithmetic. -/
def total (samples : List Sample) : Size := (samples.map Sample.count).sum

/-- The number of samples, in `size_t` arithmetic. -/
def number (samples : List Sample) : Size := BitVec.ofNat 64 samples.length

/-- The bucket of one millisecond. -/
def bucketOf (samples : List Sample) (t : Int) : Bucket :=
  let atTime := samples.filter (fun sample => sample.time = t)
  ⟨total atTime, number atTime⟩

@[simp] theorem total_append (first second : List Sample)
    : total (first ++ second) = total first + total second := by
  simp [total]

@[simp] theorem number_append (first second : List Sample)
    : number (first ++ second) = number first + number second := by
  simp [number, BitVec.ofNat_add]

@[simp] theorem total_nil : total [] = 0 := rfl

@[simp] theorem number_nil : number [] = 0 := rfl

/-- The sum is the sum of the counts modulo 2^64, by induction on the samples. -/
theorem toNat_total (samples : List Sample)
    : (total samples).toNat = (samples.map (fun sample => sample.count.toNat)).sum % 2 ^ 64 := by
  induction samples with
  | nil => rfl
  | cons sample rest ih =>
      have split : total (sample :: rest) = sample.count + total rest := rfl
      rw [split, BitVec.toNat_add, ih]
      simp

/-- Fewer than 2^64 samples are counted exactly. -/
theorem toNat_number {samples : List Sample} (countable : samples.length < 2 ^ 64)
    : (number samples).toNat = samples.length := by
  rw [number, BitVec.toNat_ofNat]
  exact Nat.mod_eq_of_lt countable

/-- Splitting the samples by a test splits their sum and their number, by induction on them. -/
theorem total_number_filter (samples : List Sample) (test : Sample → Bool)
    : total samples = total (samples.filter test) + total (samples.filter (fun s => !test s))
      ∧ number samples
        = number (samples.filter test) + number (samples.filter (fun s => !test s)) := by
  have parts := List.filter_append_perm test samples
  constructor
  · rw [← total_append]
    exact ((parts.map Sample.count).sum_eq).symm
  · rw [← number_append, number, number, parts.length_eq]

/-- A millisecond without samples has an empty bucket. -/
theorem bucketOf_eq_empty {samples : List Sample} {t : Int}
    (absent : ∀ sample ∈ samples, sample.time ≠ t)
    : bucketOf samples t = {} := by
  have none : samples.filter (fun sample => sample.time = t) = [] :=
    List.filter_eq_nil_iff.mpr (fun sample member => by simpa using absent sample member)
  simp [bucketOf, none]

/-- Dropping other milliseconds' samples leaves a bucket as it is. -/
theorem bucketOf_filter {samples : List Sample} {t : Int} {test : Sample → Bool}
    (kept : ∀ sample ∈ samples, sample.time = t → test sample = true)
    : bucketOf (samples.filter test) t = bucketOf samples t := by
  have same : (samples.filter test).filter (fun sample => sample.time = t)
      = samples.filter (fun sample => sample.time = t) := by
    rw [List.filter_filter]
    apply List.filter_congr
    intro sample member
    by_cases here : sample.time = t <;> simp [here, kept sample member]
  simp [bucketOf, same]

/-- A further sample is added to the bucket of its own millisecond. -/
theorem bucketOf_append (samples : List Sample) (sample : Sample) (t : Int)
    : bucketOf (samples ++ [sample]) t
      = if sample.time = t then
          ⟨(bucketOf samples t).sum + sample.count, (bucketOf samples t).samples + 1⟩
        else bucketOf samples t := by
  by_cases here : sample.time = t <;> simp [bucketOf, here, List.filter_append, total, number,
    BitVec.ofNat_add]

-----------------------------------------------------------------------------------------
-- The buffer holds the samples
-----------------------------------------------------------------------------------------

namespace RateStatistics

/-- The buffer is the summary of these samples: read from the oldest index on, the buckets are
those of the milliseconds from the oldest time on, and the totals are the samples' totals.
-/
structure Holds (stats : RateStatistics) (samples : List Sample) : Prop extends
    WellShaped stats where
  inside
    : ∀ sample ∈ samples,
        stats.oldestTime ≤ sample.time
        ∧ sample.time < stats.oldestTime + stats.maxWindowSizeMs
  cells
    : ∀ offset < stats.buckets.length,
        ringCell stats.buckets stats.oldestIndex offset
        = some (bucketOf samples (stats.oldestTime + offset))
  accumulated : stats.accumulatedCount = total samples
  counted : stats.numSamples = number samples

/-- A buffer of blank buckets, with no totals, holds no sample. -/
theorem WellShaped.holds_nil {stats : RateStatistics} (shaped : stats.WellShaped)
    (blank : ∀ cell ∈ stats.buckets, cell = {}) (nothing : stats.accumulatedCount = 0)
    (uncounted : stats.numSamples = 0)
    : stats.Holds [] where
  toWellShaped := shaped
  inside := by simp
  cells := by
    intro offset inside
    obtain ⟨cell, found⟩ := exists_ringCell (Nat.zero_lt_of_lt inside) stats.oldestIndex offset
    rw [found, blank cell (List.mem_of_getElem? found), bucketOf_eq_empty (by simp)]
  accumulated := nothing
  counted := uncounted

/-- An empty buffer looks the same from every oldest time. -/
theorem Holds.empty_at {stats : RateStatistics} (holds : stats.Holds []) (t : Int)
    : { stats with oldestTime := t }.Holds [] where
  toWellShaped := holds.toWellShaped.at_time t
  inside := by simp
  cells := by
    intro offset inside
    rw [bucketOf_eq_empty (by simp)]
    have empty := holds.cells offset inside
    rwa [bucketOf_eq_empty (by simp)] at empty
  accumulated := holds.accumulated
  counted := holds.counted

/-- The bucket at the oldest index is that of the oldest time. -/
theorem Holds.oldest_bucket {stats : RateStatistics} {samples : List Sample}
    (holds : stats.Holds samples)
    : stats.buckets[stats.oldestIndex]? = some (bucketOf samples stats.oldestTime) := by
  have index := holds.index
  have first := holds.cells 0 (by omega)
  rwa [ringCell, ringIndex_zero holds.index, Nat.cast_zero, add_zero] at first

/-- After the oldest bucket is emptied, the buckets from the next one on are those of the later
milliseconds; the emptied one comes last and has no sample yet.
-/
theorem Holds.cells_dropped {stats : RateStatistics} {samples : List Sample}
    (holds : stats.Holds samples) {offset : Nat} (inside : offset < stats.buckets.length)
    : ringCell (stats.buckets.set stats.oldestIndex {}) stats.nextIndex offset
      = some (bucketOf (samples.filter (fun sample => stats.oldestTime + 1 ≤ sample.time))
          (stats.oldestTime + 1 + offset)) := by
  have length := holds.length
  have positive : 0 < stats.buckets.length := by omega
  have start : ringIndex stats.buckets.length stats.oldestIndex 0 = stats.oldestIndex :=
    ringIndex_zero holds.index
  have kept : bucketOf (samples.filter (fun sample => stats.oldestTime + 1 ≤ sample.time))
      (stats.oldestTime + 1 + offset) = bucketOf samples (stats.oldestTime + 1 + offset) := by
    apply bucketOf_filter
    intro sample _ here
    simp only [decide_eq_true_eq]
    omega
  have moved : ringCell (stats.buckets.set stats.oldestIndex {}) stats.nextIndex offset
      = ringCell (stats.buckets.set stats.oldestIndex {}) stats.oldestIndex (offset + 1) := by
    have next := ringCell_next (stats.buckets.set stats.oldestIndex {}) stats.oldestIndex offset
    rwa [List.length_set, ← holds.nextIndex_eq] at next
  rw [moved, kept]
  rcases Nat.lt_or_ge (offset + 1) stats.buckets.length with before | last
  · have written := ringCell_set stats.oldestIndex positive before ({} : Bucket)
    rw [start] at written
    rw [written, if_neg (by omega), holds.cells (offset + 1) before]
    congr 2
    push_cast
    omega
  · have around : offset + 1 = stats.buckets.length := by omega
    have written := ringCell_set stats.oldestIndex positive positive ({} : Bucket)
    rw [start, if_pos rfl, ringCell, List.length_set] at written
    rw [ringCell, List.length_set, around, ringIndex_capacity, written]
    rw [bucketOf_eq_empty]
    intro sample member
    have bounds := holds.inside sample member
    omega

/-- One round of the culling loop drops the samples of the oldest millisecond. -/
theorem Holds.dropOldest {stats : RateStatistics} {samples : List Sample}
    (holds : stats.Holds samples)
    : ∃ next,
        stats.dropOldest = some next
        ∧ next.Holds (samples.filter (fun sample => stats.oldestTime + 1 ≤ sample.time))
        ∧ next.oldestTime = stats.oldestTime + 1
        ∧ stats.SameSettings next := by
  -- the samples split into those of the oldest millisecond and the later ones
  have later : samples.filter (fun sample => !decide (sample.time = stats.oldestTime))
      = samples.filter (fun sample => stats.oldestTime + 1 ≤ sample.time) := by
    apply List.filter_congr
    intro sample member
    have bounds := holds.inside sample member
    rw [Bool.eq_iff_iff, Bool.not_eq_true', decide_eq_false_iff_not, decide_eq_true_iff]
    omega
  obtain ⟨sums, counts⟩ :=
    total_number_filter samples (fun sample => decide (sample.time = stats.oldestTime))
  rw [later] at sums counts
  refine ⟨stats.dropBucket (bucketOf samples stats.oldestTime),
    by rw [RateStatistics.dropOldest, holds.oldest_bucket]; rfl, ?_, rfl, ⟨rfl, rfl⟩⟩
  constructor
  case toWellShaped => exact holds.toWellShaped.dropBucket _
  case inside =>
    intro sample member
    obtain ⟨member, above⟩ := List.mem_filter.mp member
    have bounds := holds.inside sample member
    simp only [decide_eq_true_eq] at above
    simp only [dropBucket]
    omega
  case cells =>
    intro offset inside
    exact holds.cells_dropped (by simpa [dropBucket] using inside)
  case accumulated =>
    simp only [dropBucket, bucketOf]
    rw [holds.accumulated, sums, add_sub_cancel_left]
  case counted =>
    simp only [dropBucket, bucketOf]
    rw [holds.counted, counts, add_sub_cancel_left]

/-- No sample is counted exactly when there is none. -/
theorem Holds.numSamples_pos {stats : RateStatistics} {samples : List Sample}
    (holds : stats.Holds samples) (countable : samples.length < 2 ^ 64)
    : stats.numSamples > 0 ↔ samples ≠ [] := by
  rw [gt_iff_lt, BitVec.lt_def, holds.counted, toNat_number countable]
  simp [List.length_pos_iff]

/-- The culling loop drops what is older than the new oldest time, by induction on its rounds. When
it runs out of samples early, the buffer is empty and may start anywhere.
-/
theorem Holds.cull {newOldestTime : Int} {rounds : Nat} {stats : RateStatistics}
    {samples : List Sample} (holds : stats.Holds samples) (countable : samples.length < 2 ^ 64)
    (enough : stats.oldestTime + rounds = newOldestTime)
    : ∃ culled,
        cull newOldestTime rounds stats = some culled
        ∧ { culled with oldestTime := newOldestTime }.Holds
            (samples.filter (fun sample => newOldestTime ≤ sample.time))
        ∧ stats.SameSettings culled := by
  induction rounds generalizing stats samples with
  | zero =>
      have reached : stats.oldestTime = newOldestTime := by omega
      have all : samples.filter (fun sample => newOldestTime ≤ sample.time) = samples := by
        apply List.filter_eq_self.mpr
        intro sample member
        have bounds := holds.inside sample member
        simp only [decide_eq_true_eq]
        omega
      refine ⟨stats, rfl, ?_, ⟨rfl, rfl⟩⟩
      rw [all, ← reached]
      exact holds
  | succ rounds ih =>
      rw [RateStatistics.cull]
      by_cases more : stats.numSamples > 0
      · rw [if_pos ⟨more, by omega⟩]
        obtain ⟨next, drops, nextHolds, time, settings⟩ := holds.dropOldest
        obtain ⟨culled, culls, culledHolds, kept⟩ :=
          ih nextHolds (lt_of_le_of_lt (List.length_filter_le _ _) countable) (by omega)
        refine ⟨culled, by rw [drops]; exact culls, ?_,
          ⟨kept.maximum.trans settings.maximum, kept.size.trans settings.size⟩⟩
        have same : (samples.filter (fun sample => stats.oldestTime + 1 ≤ sample.time)).filter
              (fun sample => newOldestTime ≤ sample.time)
            = samples.filter (fun sample => newOldestTime ≤ sample.time) := by
          rw [List.filter_filter]
          apply List.filter_congr
          intro sample _
          rw [Bool.eq_iff_iff, Bool.and_eq_true, decide_eq_true_iff, decide_eq_true_iff]
          omega
        rwa [same] at culledHolds
      · rw [if_neg (fun both => more both.1)]
        have none : samples = [] := by
          by_contra some
          exact more ((holds.numSamples_pos countable).mpr some)
        subst none
        exact ⟨stats, rfl, holds.empty_at newOldestTime, ⟨rfl, rfl⟩⟩

/-- A sample counted at a time inside the buffer's span is held with the others. -/
theorem Holds.addSample {stats : RateStatistics} {samples : List Sample}
    (holds : stats.Holds samples) {nowMs : Int} (count : Size)
    (since : stats.oldestTime ≤ nowMs) (inside : nowMs < stats.oldestTime + stats.maxWindowSizeMs)
    : ∃ next,
        stats.addSample count nowMs = some next
        ∧ next.Holds (samples ++ [⟨nowMs, count⟩])
        ∧ next.oldestTime = stats.oldestTime
        ∧ stats.SameSettings next := by
  obtain ⟨offset, offsetEq⟩ : ∃ offset : Nat, nowMs = stats.oldestTime + offset :=
    ⟨(nowMs - stats.oldestTime).toNat, by omega⟩
  have length := holds.length
  have placed : offset < stats.buckets.length := by omega
  have index := holds.bucketIndex_eq offsetEq placed
  have found := holds.cells offset placed
  rw [ringCell, ← index, ← offsetEq] at found
  refine ⟨stats.fillBucket (stats.bucketIndex nowMs) (bucketOf samples nowMs) count,
    by simp [RateStatistics.addSample, found], ?_, rfl, ⟨rfl, rfl⟩⟩
  constructor
  case toWellShaped => exact holds.toWellShaped.fillBucket _ _ _
  case inside =>
    intro sample member
    rcases List.mem_append.mp member with member | member
    · exact holds.inside sample member
    · obtain rfl := List.mem_singleton.mp member
      exact ⟨since, inside⟩
  case cells =>
    intro other within
    have within : other < stats.buckets.length := by simpa [fillBucket] using within
    have written := ringCell_set stats.oldestIndex placed within
      (⟨(bucketOf samples nowMs).sum + count, (bucketOf samples nowMs).samples + 1⟩ : Bucket)
    rw [← index] at written
    simp only [fillBucket, written, bucketOf_append]
    by_cases same : other = offset
    · subst same
      rw [if_pos rfl, if_pos offsetEq, offsetEq]
    · rw [if_neg same, if_neg (by omega), holds.cells other within]
  case accumulated =>
    simp only [fillBucket, total_append, holds.accumulated]
    simp [total]
  case counted =>
    simp only [fillBucket, number_append, holds.counted]
    simp [number]

end RateStatistics

-----------------------------------------------------------------------------------------
-- The estimator represents the window
-----------------------------------------------------------------------------------------

/-- The estimator's fields are those of the window. The value of the oldest time that stands for
"no sample yet" is below every mark a sample can set.
-/
structure Represents (stats : RateStatistics) (window : Window) : Prop where
  holds : stats.Holds window.samples
  maximum : stats.maxWindowSizeMs = window.maximum
  size : stats.currentWindowSizeMs = window.size
  positive : 1 ≤ window.size
  fits : window.size ≤ window.maximum
  oldest : stats.oldestTime = window.low.getD (-window.maximum)
  marks : ∀ low ∈ window.low, -window.maximum < low
  unmarked : window.low = none → window.samples = []

/-- The estimator is initialised exactly when the mark is set. -/
theorem Represents.isInitialized_iff {stats : RateStatistics} {window : Window}
    (represents : Represents stats window)
    : stats.isInitialized = true ↔ window.low ≠ none := by
  rw [RateStatistics.isInitialized, represents.maximum, represents.oldest, bne_iff_ne]
  cases marked : window.low with
  | none => simp
  | some low =>
      have above := represents.marks low marked
      simp only [Option.getD_some, ne_eq, reduceCtorEq, not_false_iff, iff_true]
      omega

/-- Without a mark the estimator is not initialised. -/
theorem Represents.not_isInitialized {stats : RateStatistics} {window : Window}
    (represents : Represents stats window) (unmarked : window.low = none)
    : stats.isInitialized = false := by
  rw [← Bool.not_eq_true, represents.isInitialized_iff]
  exact fun marked => marked unmarked

/-- Once the mark is set, it is the oldest time. -/
theorem Represents.oldestTime_eq {stats : RateStatistics} {window : Window}
    (represents : Represents stats window) {low : Int} (marked : window.low = some low)
    : stats.oldestTime = low := by
  rw [represents.oldest, marked, Option.getD_some]

/-- No sample is below the mark. -/
theorem Represents.above {stats : RateStatistics} {window : Window}
    (represents : Represents stats window) {low : Int} (marked : window.low = some low)
    : ∀ sample ∈ window.samples, low ≤ sample.time := by
  intro sample member
  have bounds := represents.holds.inside sample member
  rw [represents.oldestTime_eq marked] at bounds
  exact bounds.1

/-- Where the sizes are as before, the samples that the buffer holds and a mark at its oldest time
make the window that it represents.
-/
theorem Represents.remark {stats next : RateStatistics} {window : Window}
    (represents : Represents stats window) {samples : List Sample} {mark : Int}
    (holds : next.Holds samples) (settings : stats.SameSettings next)
    (oldest : next.oldestTime = mark) (above : -window.maximum < mark)
    : Represents next { window with low := some mark, samples := samples } where
  holds := holds
  maximum := settings.maximum.trans represents.maximum
  size := settings.size.trans represents.size
  positive := represents.positive
  fits := represents.fits
  oldest := oldest
  marks := by
    intro low isMark
    cases isMark
    exact above
  unmarked := fun impossible => nomatch impossible

/-- Moving the estimator to a time moves the window to it. -/
theorem Represents.eraseOld {stats : RateStatistics} {window : Window}
    (represents : Represents stats window) (countable : window.samples.length < 2 ^ 64) {t : Int}
    (time : 0 ≤ t)
    : ∃ moved, stats.eraseOld t = some moved ∧ Represents moved (window.advance t) := by
  rw [RateStatistics.eraseOld]
  cases marked : window.low with
  | none =>
      have fresh := represents.not_isInitialized marked
      exact ⟨stats, by simp [fresh], by simpa [Window.advance, marked] using represents⟩
  | some low =>
      have started : stats.isInitialized = true :=
        represents.isInitialized_iff.mpr (by simp [marked])
      have oldest := represents.oldestTime_eq marked
      have size := represents.size
      have fits := represents.fits
      have positive := represents.positive
      simp only [started, Bool.not_true, Bool.false_eq_true, if_false]
      by_cases early : t - stats.currentWindowSizeMs + 1 ≤ stats.oldestTime
      · rw [if_pos early, Window.advance_of_le marked (represents.above marked) (by omega)]
        exact ⟨stats, rfl, represents⟩
      · rw [if_neg early]
        obtain ⟨culled, culls, holds, settings⟩ := represents.holds.cull countable
          (by omega : stats.oldestTime
            + ((t - stats.currentWindowSizeMs + 1 - stats.oldestTime).toNat : Int)
            = t - stats.currentWindowSizeMs + 1)
        refine ⟨_, by rw [culls]; rfl, ?_⟩
        have raised : max low (t - window.size + 1) = t - stats.currentWindowSizeMs + 1 := by
          rw [size]
          exact max_eq_right (by omega)
        simp only [Window.advance, marked, raised]
        exact represents.remark holds ⟨settings.maximum, settings.size⟩ rfl (by omega)

/-- Once the window is moved to a time, its mark lies between the window's start and that time, if
it was not past that time before.
-/
theorem Window.advance_low {window : Window} {t low : Int} (positive : 1 ≤ window.size)
    (past : ∀ earlier, window.low = some earlier → earlier ≤ t)
    (marked : (window.advance t).low = some low)
    : low ≤ t ∧ t - (window.advance t).size + 1 ≤ low := by
  revert marked
  unfold advance
  split
  next unset =>
    intro marked
    exact absurd (unset.symm.trans marked) (by simp)
  next earlier set =>
    intro marked
    rw [← Option.some.inj marked]
    exact ⟨max_le (past earlier set) (by omega), le_max_right _ _⟩

/-- A data point at a time that the window has been moved to is retained by both. -/
theorem Represents.accept {stats : RateStatistics} {window : Window}
    (represents : Represents stats window) (count : Size) {t : Int} (time : 0 ≤ t)
    (recent : ∀ low, window.low = some low → low ≤ t ∧ t - window.size + 1 ≤ low)
    : ∃ next,
        (stats.startWindow t).addSample count t = some next
        ∧ Represents next (window.accept count t) := by
  have fits := represents.fits
  have positive := represents.positive
  have maximum := represents.maximum
  cases marked : window.low with
  | none =>
      have fresh := represents.not_isInitialized marked
      have empty := represents.unmarked marked
      have holds := represents.holds
      rw [empty] at holds
      have started : stats.startWindow t = { stats with oldestTime := t } := by
        simp [RateStatistics.startWindow, fresh]
      obtain ⟨next, adds, nextHolds, nextOldest, settings⟩ :=
        (holds.empty_at t).addSample count le_rfl
          (show t < t + stats.maxWindowSizeMs by omega)
      refine ⟨next, by rw [started, adds], ?_⟩
      simp only [Window.accept, marked, empty]
      exact represents.remark nextHolds ⟨settings.maximum, settings.size⟩ nextOldest (by omega)
  | some low =>
      have started : stats.isInitialized = true :=
        represents.isInitialized_iff.mpr (by simp [marked])
      have same : stats.startWindow t = stats := by simp [RateStatistics.startWindow, started]
      have oldest := represents.oldestTime_eq marked
      obtain ⟨since, start⟩ := recent low marked
      obtain ⟨next, adds, nextHolds, nextOldest, settings⟩ :=
        represents.holds.addSample count (by omega : stats.oldestTime ≤ t) (by omega)
      refine ⟨next, by rw [same, adds], ?_⟩
      have retained := represents.remark nextHolds settings (nextOldest.trans oldest)
        (represents.marks low marked)
      simpa only [Window.accept, marked, if_neg (by omega : ¬ t < low)] using retained

/-- A data point is taken, or ignored, by both. -/
theorem Represents.update {stats : RateStatistics} {window : Window}
    (represents : Represents stats window) (countable : window.samples.length < 2 ^ 64)
    (count : Size) {t : Int} (time : 0 ≤ t)
    : ∃ next,
        stats.update count t = some next
        ∧ Represents next ((window.advance t).accept count t) := by
  have positive := represents.positive
  have fits := represents.fits
  rw [RateStatistics.update]
  by_cases late : t < stats.oldestTime
  · rw [if_pos late]
    cases marked : window.low with
    | none =>
        have oldest := represents.oldest
        rw [marked, Option.getD_none] at oldest
        omega
    | some low =>
        have oldest := represents.oldestTime_eq marked
        have still : window.advance t = window :=
          Window.advance_of_le marked (represents.above marked) (by omega)
        refine ⟨stats, rfl, ?_⟩
        rw [still, Window.accept, marked]
        simpa [(by omega : t < low)] using represents
  · rw [if_neg late]
    obtain ⟨erased, erases, moved⟩ := represents.eraseOld countable time
    have past : ∀ earlier, window.low = some earlier → earlier ≤ t := by
      intro earlier marked
      have oldest := represents.oldestTime_eq marked
      omega
    obtain ⟨next, adds, accepted⟩ :=
      moved.accept count time (fun low marked => Window.advance_low positive past marked)
    exact ⟨next, by rw [erases]; exact adds, accepted⟩

/-- Resetting both makes both new. -/
theorem Represents.reset {stats : RateStatistics} {window : Window}
    (represents : Represents stats window)
    : Represents stats.reset (.initial window.maximum) := by
  have maximum := represents.maximum
  have blank : ∀ cell ∈ stats.reset.buckets, cell = {} := by
    intro cell member
    obtain ⟨_, _, equal⟩ := List.mem_map.mp member
    exact equal.symm
  constructor
  case holds => exact represents.holds.toWellShaped.reset.holds_nil blank rfl rfl
  case maximum => exact maximum
  case size => exact maximum
  case positive => exact represents.positive.trans represents.fits
  case fits => exact le_rfl
  case oldest => exact congrArg Neg.neg maximum
  case marks => exact fun _ impossible => nomatch impossible
  case unmarked => exact fun _ => rfl

/-- A new estimator represents the empty window. -/
theorem represents_construct {maximum : Int} (positive : 1 ≤ maximum) (bounded : maximum < 2 ^ 31)
    (scale : Float32)
    : Represents (.construct maximum scale) (.initial maximum) := by
  have shaped := RateStatistics.wellShaped_construct positive bounded scale
  constructor
  case holds => exact shaped.holds_nil (fun _ member => List.eq_of_mem_replicate member) rfl rfl
  case maximum => rfl
  case size => rfl
  case positive => exact positive
  case fits => exact le_rfl
  case oldest => rfl
  case marks => exact fun _ impossible => nomatch impossible
  case unmarked => exact fun _ => rfl

/-- One call keeps the estimator and the window together, and uses only buckets that exist. -/
theorem Represents.perform {stats : RateStatistics} {window : Window}
    (represents : Represents stats window) (countable : window.samples.length < 2 ^ 64)
    {call : Call} (times : ∀ t ∈ call.time?, 0 ≤ t)
    : ∃ next outcome,
        perform stats call = some (next, outcome) ∧ Represents next (window.step call) := by
  cases call with
  | update count t =>
      obtain ⟨next, updates, kept⟩ := represents.update countable count (times t rfl)
      exact ⟨next, .none, by simp [Rates.perform, updates], kept⟩
  | rate t =>
      obtain ⟨moved, erases, kept⟩ := represents.eraseOld countable (times t rfl)
      exact ⟨moved, .rate (moved.rateOver t),
        by simp [Rates.perform, RateStatistics.rate, erases], kept⟩
  | setWindowSize size t =>
      have maximum := represents.maximum
      simp only [Rates.perform, RateStatistics.setWindowSize, Window.step]
      by_cases refused : size ≤ 0 ∨ size > window.maximum
      · rw [if_pos (by rwa [maximum]), if_pos refused]
        exact ⟨stats, .resized false, rfl, represents⟩
      · rw [if_neg (by rwa [maximum]), if_neg refused]
        have resized : Represents { stats with currentWindowSizeMs := size }
            { window with size := size } :=
          { represents with
            holds := { represents.holds with toWellShaped := represents.holds.resized size }
            size := rfl
            positive := show 1 ≤ size by omega
            fits := show size ≤ window.maximum by omega }
        obtain ⟨moved, erases, kept⟩ := resized.eraseOld countable (times t rfl)
        exact ⟨moved, .resized true, by simp [erases], kept⟩
  | reset => exact ⟨stats.reset, .none, rfl, represents.reset⟩

/-- A run of calls keeps the estimator and the window together, by induction on the calls. -/
theorem Represents.performAll {stats : RateStatistics} {window : Window} {calls : List Call}
    (represents : Represents stats window)
    (times : ∀ call ∈ calls, ∀ t ∈ call.time?, 0 ≤ t)
    (countable
      : ∀ reached, reached <+: calls
          → (runFrom Window.step window reached).samples.length < 2 ^ 64)
    : ∃ final outcomes,
        performAll stats calls = some (final, outcomes)
        ∧ Represents final (runFrom Window.step window calls) := by
  induction calls generalizing stats window with
  | nil => exact ⟨stats, [], rfl, represents⟩
  | cons call rest ih =>
      obtain ⟨next, outcome, performs, kept⟩ :=
        represents.perform (countable [] List.nil_prefix) (times call List.mem_cons_self)
      obtain ⟨final, outcomes, runs, ends⟩ := ih kept
        (fun later member => times later (List.mem_cons_of_mem call member))
        (fun reached isPrefix =>
          countable (call :: reached) (List.cons_prefix_cons.mpr ⟨rfl, isPrefix⟩))
      exact ⟨final, outcome :: outcomes, performAll_cons performs runs, ends⟩

-----------------------------------------------------------------------------------------
-- Agreement
-----------------------------------------------------------------------------------------

/-- What the estimator and the window agree on: the oldest time is the mark, or stands for "no
sample yet", and the totals are those of the retained samples, the sum modulo 2^64.
-/
structure Agrees (stats : RateStatistics) (window : Window) : Prop where
  buckets : (stats.buckets.length : Int) = window.maximum
  size : stats.currentWindowSizeMs = window.size
  oldest : stats.oldestTime = window.low.getD (-window.maximum)
  initialized : stats.isInitialized = true ↔ window.low ≠ none
  accumulated
    : stats.accumulatedCount.toNat
      = (window.samples.map (fun sample => sample.count.toNat)).sum % 2 ^ 64
  counted : stats.numSamples.toNat = window.samples.length

/-- An estimator that represents a window agrees with it. -/
theorem Represents.agrees {stats : RateStatistics} {window : Window}
    (represents : Represents stats window) (countable : window.samples.length < 2 ^ 64)
    : Agrees stats window where
  buckets := represents.holds.length.trans represents.maximum
  size := represents.size
  oldest := represents.oldest
  initialized := represents.isInitialized_iff
  accumulated := by rw [represents.holds.accumulated, toNat_total]
  counted := by rw [represents.holds.counted, toNat_number countable]

/-- Once the window is moved, no rate is given exactly when the window makes it unavailable. -/
theorem Agrees.rateOver_eq_none_iff {stats : RateStatistics} {window : Window}
    (agrees : Agrees stats window) (unmarked : window.low = none → window.samples = []) (t : Int)
    : stats.rateOver t = none ↔ window.Unavailable t := by
  have none : stats.numSamples = 0 ↔ window.samples = [] := by
    rw [← BitVec.toNat_inj, agrees.counted]
    simp
  have one : stats.numSamples ≤ 1 ↔ window.samples.length ≤ 1 := by
    rw [BitVec.le_def, agrees.counted]
    rfl
  have oldest := agrees.oldest
  simp only [RateStatistics.rateOver, Window.Unavailable, none, one, agrees.size]
  cases marked : window.low with
  | none => simp [unmarked marked]
  | some low =>
      rw [marked, Option.getD_some] at oldest
      simp only [oldest, ite_eq_left_iff, reduceCtorEq, imp_false, not_not, Option.mem_def,
        Option.some.injEq, exists_eq_left']

/-- The estimator refines the sliding window: for every maximum window and every sequence of
calls with non-negative times that never retains 2^64 samples at once, the run stays inside the
buffer and agrees with the window, and at any time a rate is given exactly when the window, moved
to that time, makes it available.
-/
theorem rateStatistics_refines_window {maximum : Int} (positive : 1 ≤ maximum)
    (bounded : maximum < 2 ^ 31) (scale : Float32) {calls : List Call}
    (times : ∀ call ∈ calls, ∀ t ∈ call.time?, 0 ≤ t)
    (countable
      : ∀ reached, reached <+: calls → (Window.after maximum reached).samples.length < 2 ^ 64)
    : ∃ stats outcomes,
        performAll (.construct maximum scale) calls = some (stats, outcomes)
        ∧ Agrees stats (Window.after maximum calls)
        ∧ ∀ t, 0 ≤ t
            → ∃ moved value,
                stats.rate t = some (moved, value)
                ∧ Agrees moved ((Window.after maximum calls).advance t)
                ∧ (value = none ↔ ((Window.after maximum calls).advance t).Unavailable t) := by
  obtain ⟨stats, outcomes, runs, represents⟩ :=
    (represents_construct positive bounded scale).performAll times countable
  have few : (Window.after maximum calls).samples.length < 2 ^ 64 :=
    countable calls List.prefix_rfl
  refine ⟨stats, outcomes, runs, represents.agrees few, ?_⟩
  intro t time
  obtain ⟨moved, erases, kept⟩ := represents.eraseOld few time
  have fewer : ((Window.after maximum calls).advance t).samples.length < 2 ^ 64 := by
    refine lt_of_le_of_lt ?_ few
    unfold Window.advance
    split
    · exact le_rfl
    · exact List.length_filter_le _ _
  exact ⟨moved, moved.rateOver t, by simp [RateStatistics.rate, erases], kept.agrees fewer,
    (kept.agrees fewer).rateOver_eq_none_iff kept.unmarked t⟩

/-- Witness: an estimator of one second that gets two samples, is narrowed and reset. -/
theorem rateStatistics_refines_window_one_second
    : ∃ stats outcomes,
        performAll (.construct 1000 8000)
            [.update 3 0, .update 4 20, .setWindowSize 10 25, .rate 26, .reset]
          = some (stats, outcomes)
        ∧ Agrees stats (Window.after 1000
            [.update 3 0, .update 4 20, .setWindowSize 10 25, .rate 26, .reset]) := by
  obtain ⟨stats, outcomes, runs, agrees, _⟩ :=
    rateStatistics_refines_window (by decide : (1 : Int) ≤ 1000) (by decide) 8000
      (by decide : ∀ call ∈ [.update 3 0, .update 4 20, .setWindowSize 10 25, .rate 26, Call.reset],
        ∀ t ∈ call.time?, 0 ≤ t)
      (by
        simp only [← List.mem_inits]
        decide)
  exact ⟨stats, outcomes, runs, agrees⟩

-----------------------------------------------------------------------------------------
-- The counter of samples wraps
-----------------------------------------------------------------------------------------

/-- An estimator with a window of two milliseconds after `seen` samples at time zero. -/
def crowded (scale : Float32) (seen : Size) : RateStatistics where
  buckets := [⟨0, seen⟩, {}]
  accumulatedCount := 0
  numSamples := seen
  oldestTime := 0
  oldestIndex := 0
  scale := scale
  maxWindowSizeMs := 2
  currentWindowSizeMs := 2

/-- Each further sample at time zero is counted modulo 2^64, by induction on their number. -/
theorem performAll_crowded (scale : Float32) (more : Nat) (seen : Size)
    : ∃ outcomes,
        performAll (crowded scale seen) (List.replicate more (.update 0 0))
        = some (crowded scale (seen + BitVec.ofNat 64 more), outcomes) := by
  induction more generalizing seen with
  | zero => exact ⟨[], by simp [performAll]⟩
  | succ more ih =>
      obtain ⟨outcomes, runs⟩ := ih (seen + 1)
      have one : perform (crowded scale seen) (.update 0 0)
          = some (crowded scale (seen + 1), .none) := rfl
      have sum : seen + 1 + BitVec.ofNat 64 more = seen + BitVec.ofNat 64 (more + 1) := by
        rw [BitVec.ofNat_add, add_assoc, add_comm (1 : Size)]
        rfl
      rw [sum] at runs
      exact ⟨.none :: outcomes, performAll_cons one runs⟩

/-- Each further sample at time zero is retained by the window, by induction on their number. -/
theorem runFrom_crowded (more : Nat) (samples : List Sample)
    (atZero : ∀ sample ∈ samples, sample.time = 0)
    : runFrom Window.step ⟨2, 2, some 0, samples⟩ (List.replicate more (.update 0 0))
      = ⟨2, 2, some 0, samples ++ List.replicate more ⟨0, 0⟩⟩ := by
  induction more generalizing samples with
  | zero => simp
  | succ more ih =>
      have kept : samples.filter (fun sample => (0 : Int) ≤ sample.time) = samples :=
        List.filter_eq_self.mpr (fun sample member => by simp [atZero sample member])
      have one : Window.step ⟨2, 2, some 0, samples⟩ (.update 0 0)
          = ⟨2, 2, some 0, samples ++ [⟨0, 0⟩]⟩ := by
        simp [Window.step, Window.advance, Window.accept, kept]
      have still : ∀ sample ∈ samples ++ [⟨0, 0⟩], sample.time = 0 := by
        simpa [or_imp, forall_and] using atZero
      rw [List.replicate_succ, runFrom_cons, one, ih _ still]
      simp [List.replicate_succ]

/-- With 2^64 samples in the window the counter is back at zero, and a rate that the window makes
available is not given.
-/
theorem rateStatistics_sample_counter_wraps
    : ∃ stats outcomes,
        performAll (.construct 2 8000) (List.replicate (2 ^ 64) (.update 0 0))
          = some (stats, outcomes)
        ∧ (Window.after 2 (List.replicate (2 ^ 64) (.update 0 0))).samples.length = 2 ^ 64
        ∧ stats.numSamples.toNat ≠ 2 ^ 64
        ∧ (∃ moved, stats.rate 1 = some (moved, none))
        ∧ ¬ ((Window.after 2 (List.replicate (2 ^ 64) (.update 0 0))).advance 1).Unavailable 1 := by
  obtain ⟨outcomes, runs⟩ := performAll_crowded 8000 (2 ^ 64 - 1) 1
  have first : perform (.construct 2 8000) (.update 0 0) = some (crowded 8000 1, .none) := rfl
  have split : List.replicate (2 ^ 64) (Call.update 0 0)
      = .update 0 0 :: List.replicate (2 ^ 64 - 1) (.update 0 0) := List.replicate_succ
  have window : Window.after 2 (List.replicate (2 ^ 64) (.update 0 0))
      = ⟨2, 2, some 0, List.replicate (2 ^ 64) ⟨0, 0⟩⟩ := by
    rw [split, Window.after, runFrom_cons]
    have start : Window.step (.initial 2) (.update 0 0) = ⟨2, 2, some 0, [⟨0, 0⟩]⟩ := rfl
    rw [start, runFrom_crowded _ _ (by simp)]
    rfl
  have wrapped : (1 : Size) + BitVec.ofNat 64 (2 ^ 64 - 1) = 0 := by decide
  rw [wrapped] at runs
  refine ⟨crowded 8000 0, .none :: outcomes, ?_, ?_, by decide, ⟨_, rfl⟩, ?_⟩
  · rw [split]
    exact performAll_cons first runs
  · rw [window, List.length_replicate]
  · have still : ((⟨2, 2, some 0, List.replicate (2 ^ 64) ⟨0, 0⟩⟩ : Window).advance 1)
        = ⟨2, 2, some 0, List.replicate (2 ^ 64) ⟨0, 0⟩⟩ := by
      apply Window.advance_of_le rfl
      · intro sample member
        rw [List.eq_of_mem_replicate member]
      · decide
    rw [window, still]
    intro unavailable
    rcases unavailable with empty | ⟨low, marked, short⟩
    · have length := congrArg List.length empty
      rw [List.length_replicate, List.length_nil] at length
      omega
    · obtain rfl := Option.some.inj marked
      simp only [List.length_replicate] at short
      omega

end RtcBase.Rates

import RtcBase.Rates.Model

/-! Reading the rate moves the window. Two runs that differ in some of the rate calls are compared:
a run without some of them lags behind by a cull, which the next call makes up for, unless that
call reopens the window past what the rate calls have culled.
-/

namespace RtcBase.Rates

open Library

namespace RateStatistics

/-- Drop what is older than a given time. -/
def eraseTo (stats : RateStatistics) (target : Int) : Option RateStatistics :=
  if !stats.isInitialized then some stats
  else if target ≤ stats.oldestTime then some stats
  else do
    let culled ← cull target (target - stats.oldestTime).toNat stats
    some { culled with oldestTime := target }

theorem eraseOld_eq_eraseTo (stats : RateStatistics) (nowMs : Int)
    : stats.eraseOld nowMs = stats.eraseTo (nowMs - stats.currentWindowSizeMs + 1) := rfl

theorem dropOldest_cases {stats next : RateStatistics} (drops : stats.dropOldest = some next)
    : ∃ bucket, next = stats.dropBucket bucket := by
  obtain ⟨bucket, _, equal⟩ := Option.bind_eq_some_iff.mp drops
  exact ⟨bucket, (Option.some.inj equal).symm⟩

/-- Without samples the culling loop does nothing. -/
theorem cull_of_empty {stats : RateStatistics} (empty : ¬ stats.numSamples > 0) (target : Int)
    (rounds : Nat)
    : cull target rounds stats = some stats := by
  cases rounds with
  | zero => rfl
  | succ rounds => rw [cull, if_neg (fun both => empty both.1)]

/-- The culling loop succeeds on a well-shaped buffer and keeps its shape, by induction on its
rounds.
-/
theorem WellShaped.cull {stats : RateStatistics} (shape : stats.WellShaped) (target : Int)
    (rounds : Nat)
    : ∃ culled, cull target rounds stats = some culled ∧ culled.WellShaped := by
  induction rounds generalizing stats with
  | zero => exact ⟨stats, rfl, shape⟩
  | succ rounds ih =>
      rw [RateStatistics.cull]
      split
      · have index := shape.index
        have found := List.getElem?_eq_getElem index
        have drops : stats.dropOldest = some (stats.dropBucket stats.buckets[stats.oldestIndex]) := by
          rw [dropOldest, found]
          rfl
        obtain ⟨culled, culls, kept⟩ := ih (shape.dropBucket _)
        exact ⟨culled, by rw [drops]; exact culls, kept⟩
      · exact ⟨stats, rfl, shape⟩

/-- The culling loop leaves the window sizes alone, by induction on its rounds. -/
theorem cull_settings {stats culled : RateStatistics} {target : Int} {rounds : Nat}
    (culls : cull target rounds stats = some culled)
    : stats.SameSettings culled := by
  induction rounds generalizing stats with
  | zero =>
      obtain rfl := Option.some.inj culls
      exact ⟨rfl, rfl⟩
  | succ rounds ih =>
      rw [cull] at culls
      split at culls
      · obtain ⟨next, drops, rest⟩ := Option.bind_eq_some_iff.mp culls
        obtain ⟨bucket, rfl⟩ := dropOldest_cases drops
        have kept := ih rest
        exact ⟨kept.maximum, kept.size⟩
      · obtain rfl := Option.some.inj culls
        exact ⟨rfl, rfl⟩

/-- The culling loop does not read the current window size, by induction on its rounds. -/
theorem cull_resized (stats : RateStatistics) (size target : Int) (rounds : Nat)
    : cull target rounds { stats with currentWindowSizeMs := size }
      = (cull target rounds stats).map (fun culled => { culled with currentWindowSizeMs := size }) := by
  induction rounds generalizing stats with
  | zero => rfl
  | succ rounds ih =>
      simp only [cull]
      split
      · cases found : stats.buckets[stats.oldestIndex]? with
        | none => simp [dropOldest, found]
        | some bucket =>
            have same := ih (stats.dropBucket bucket)
            simpa [dropOldest, found, dropBucket, nextIndex] using same
      · rfl

/-- Culling in two goes is culling in one, by induction on the rounds of the first. A first go that
runs out of samples leaves nothing for the second.
-/
theorem cull_cull {stats : RateStatistics} {first second : Int} {rounds more : Nat}
    (firstEq : first = stats.oldestTime + rounds) (secondEq : second = first + more)
    : ((cull first rounds stats).bind fun culled =>
          (cull second more { culled with oldestTime := first }).map
            fun final => { final with oldestTime := second })
      = (cull second (rounds + more) stats).map fun final => { final with oldestTime := second } := by
  induction rounds generalizing stats with
  | zero =>
      have reached : first = stats.oldestTime := by omega
      simp only [cull, Option.bind_some, reached, Nat.zero_add]
  | succ rounds ih =>
      rw [show rounds + 1 + more = rounds + more + 1 by omega]
      simp only [cull]
      by_cases samples : stats.numSamples > 0
      · rw [if_pos ⟨samples, by omega⟩, if_pos ⟨samples, by omega⟩]
        cases drops : stats.dropOldest with
        | none => rfl
        | some next =>
            obtain ⟨bucket, rfl⟩ := dropOldest_cases drops
            exact ih (by simp only [dropBucket]; omega)
      · rw [if_neg (fun both => samples both.1), if_neg (fun both => samples both.1)]
        have still : ¬ ({ stats with oldestTime := first } : RateStatistics).numSamples > 0 := samples
        rw [Option.bind_some, cull_of_empty still]
        rfl

theorem eraseTo_of_le {stats : RateStatistics} {target : Int} (early : target ≤ stats.oldestTime)
    : stats.eraseTo target = some stats := by
  rw [eraseTo, if_pos early, ite_self]

theorem eraseTo_of_lt {stats : RateStatistics} {target : Int}
    (started : stats.isInitialized = true) (late : stats.oldestTime < target)
    : stats.eraseTo target
      = (cull target (target - stats.oldestTime).toNat stats).map
          (fun culled => { culled with oldestTime := target }) := by
  rw [eraseTo, if_neg (by simp [started]), if_neg (by omega)]
  cases cull target (target - stats.oldestTime).toNat stats <;> rfl

/-- What erasing up to a time leaves: the same state, or one that starts at that time. -/
theorem eraseTo_cases {stats moved : RateStatistics} {target : Int}
    (erases : stats.eraseTo target = some moved)
    : moved = stats ∧ (stats.isInitialized = true → target ≤ stats.oldestTime)
      ∨ stats.isInitialized = true
        ∧ stats.oldestTime < target
        ∧ moved.oldestTime = target
        ∧ stats.SameSettings moved := by
  rw [eraseTo] at erases
  split at erases
  next fresh =>
    obtain rfl := Option.some.inj erases
    exact .inl ⟨rfl, fun started => by simp [started] at fresh⟩
  next started =>
    split at erases
    next early =>
      obtain rfl := Option.some.inj erases
      exact .inl ⟨rfl, fun _ => early⟩
    next late =>
      obtain ⟨culled, culls, equal⟩ := Option.bind_eq_some_iff.mp erases
      obtain rfl := Option.some.inj equal
      have kept := cull_settings culls
      exact .inr ⟨by simpa using started, by omega, rfl, ⟨kept.maximum, kept.size⟩⟩

/-- Erasing succeeds on a well-shaped buffer and keeps its shape. -/
theorem WellShaped.eraseTo {stats : RateStatistics} (shape : stats.WellShaped) (target : Int)
    : ∃ moved, stats.eraseTo target = some moved ∧ moved.WellShaped := by
  rw [RateStatistics.eraseTo]
  split
  · exact ⟨stats, rfl, shape⟩
  · split
    · exact ⟨stats, rfl, shape⟩
    · obtain ⟨culled, culls, kept⟩ := shape.cull target (target - stats.oldestTime).toNat
      exact ⟨_, by rw [culls]; rfl, kept.at_time target⟩

/-- Erasing does not read the current window size. -/
theorem eraseTo_resized (stats : RateStatistics) (size target : Int)
    : { stats with currentWindowSizeMs := size }.eraseTo target
      = (stats.eraseTo target).map (fun moved => { moved with currentWindowSizeMs := size }) := by
  have same : ({ stats with currentWindowSizeMs := size } : RateStatistics).isInitialized
      = stats.isInitialized := rfl
  simp only [eraseTo, same, cull_resized]
  by_cases fresh : (!stats.isInitialized) = true
  · rw [if_pos fresh, if_pos fresh]
    rfl
  · rw [if_neg fresh, if_neg fresh]
    by_cases early : target ≤ stats.oldestTime
    · rw [if_pos early, if_pos early]
      rfl
    · rw [if_neg early, if_neg early]
      cases cull target (target - stats.oldestTime).toNat stats <;> rfl

/-- Erasing up to one time and then up to a later one is erasing up to the later one. -/
theorem eraseTo_eraseTo {stats moved : RateStatistics} {first second : Int}
    (above : -stats.maxWindowSizeMs < first) (later : first ≤ second)
    (erases : stats.eraseTo first = some moved)
    : moved.eraseTo second = stats.eraseTo second := by
  rcases eraseTo_cases erases with ⟨rfl, _⟩ | ⟨started, past, reached, settings⟩
  · rfl
  · have still : moved.isInitialized = true := by
      rw [isInitialized, bne_iff_ne, reached, settings.maximum]
      omega
    obtain ⟨culled, culls, equal⟩ :=
      Option.map_eq_some_iff.mp ((eraseTo_of_lt started past).symm.trans erases)
    rcases Int.lt_or_eq_of_le later with before | rfl
    · have together := cull_cull
        (by omega : first = stats.oldestTime + ((first - stats.oldestTime).toNat : Int))
        (by omega : second = first + ((second - first).toNat : Int))
      rw [culls, Option.bind_some, equal,
        show (first - stats.oldestTime).toNat + (second - first).toNat
          = (second - stats.oldestTime).toNat by omega] at together
      rw [eraseTo_of_lt still (by omega), eraseTo_of_lt started (by omega), reached]
      exact together
    · rw [erases, eraseTo_of_le reached.ge]

-----------------------------------------------------------------------------------------
-- Calls under a monotonic clock always succeed
-----------------------------------------------------------------------------------------

/-- The buffer is well shaped, the current window fits in it, and the clock has reached the oldest
time.
-/
structure Sound (stats : RateStatistics) (now : Int) : Prop where
  shape : stats.WellShaped
  positive : 1 ≤ stats.currentWindowSizeMs
  fits : stats.currentWindowSizeMs ≤ stats.maxWindowSizeMs
  reached : stats.oldestTime ≤ now

/-- Moving the window succeeds; once there are samples, the window spans the oldest time. -/
theorem Sound.eraseOld {stats : RateStatistics} {now t : Int} (sound : stats.Sound now)
    (later : now ≤ t)
    : ∃ moved,
        stats.eraseOld t = some moved
        ∧ moved.Sound t
        ∧ stats.SameSettings moved
        ∧ stats.oldestTime ≤ moved.oldestTime
        ∧ (moved.isInitialized = true → t - moved.currentWindowSizeMs + 1 ≤ moved.oldestTime) := by
  rw [eraseOld_eq_eraseTo]
  have positive := sound.positive
  have reached := sound.reached
  obtain ⟨moved, erases, shape⟩ := sound.shape.eraseTo (t - stats.currentWindowSizeMs + 1)
  refine ⟨moved, erases, ?_⟩
  rcases eraseTo_cases erases with ⟨rfl, early⟩ | ⟨_, past, oldest, settings⟩
  · exact ⟨⟨shape, positive, sound.fits, by omega⟩, ⟨rfl, rfl⟩, le_rfl, early⟩
  · refine ⟨⟨shape, ?_, ?_, by omega⟩, settings, by omega, ?_⟩
    · rw [settings.size]
      exact positive
    · rw [settings.size, settings.maximum]
      exact sound.fits
    · intro _
      rw [settings.size, oldest]

/-- A sample is counted in a window that has been moved to its time. -/
theorem Sound.addSample {stats : RateStatistics} {t : Int} (sound : stats.Sound t) (count : Size)
    (spans : stats.isInitialized = true → t - stats.currentWindowSizeMs + 1 ≤ stats.oldestTime)
    : ∃ next, (stats.startWindow t).addSample count t = some next ∧ next.Sound t := by
  have started : ∃ oldest,
      stats.startWindow t = { stats with oldestTime := oldest }
      ∧ oldest ≤ t
      ∧ t - stats.currentWindowSizeMs + 1 ≤ oldest := by
    have positive := sound.positive
    rw [startWindow]
    cases fresh : stats.isInitialized with
    | false => exact ⟨t, by simp, le_rfl, by omega⟩
    | true => exact ⟨stats.oldestTime, by simp, sound.reached, spans fresh⟩
  obtain ⟨oldest, starts, before, after⟩ := started
  have shape := sound.shape.at_time oldest
  have length := sound.shape.length
  have fits := sound.fits
  have offset : t = oldest + ((t - oldest).toNat : Int) := by omega
  have inside : (t - oldest).toNat < stats.buckets.length := by omega
  have index := shape.bucketIndex_eq offset inside
  have nonempty : 0 < stats.buckets.length := by omega
  have bounded : ({ stats with oldestTime := oldest } : RateStatistics).bucketIndex t
      < stats.buckets.length := by
    rw [index]
    exact ringIndex_lt nonempty _ _
  have found := List.getElem?_eq_getElem bounded
  rw [starts]
  refine ⟨_, by rw [RateStatistics.addSample]; exact Option.bind_eq_some_iff.mpr ⟨_, found, rfl⟩, ?_⟩
  exact ⟨shape.fillBucket _ _ _, sound.positive, fits, before⟩

end RateStatistics

open RateStatistics

-----------------------------------------------------------------------------------------
-- A run without some of the rate calls
-----------------------------------------------------------------------------------------

/-- The items at the kept places. -/
def select {α : Type*} : List Bool → List α → List α
  | true :: keep, item :: rest => item :: select keep rest
  | false :: keep, _ :: rest => select keep rest
  | _, _ => []

/-- The oldest time that the calls other than rate calls have settled so far. -/
def settledAfter (call : Call) (before after : RateStatistics) (settled : Int) : Int :=
  match call with
  | .rate _ => settled
  | .setWindowSize size _ =>
      if size ≤ 0 ∨ size > before.maxWindowSizeMs then settled else after.oldestTime
  | .update _ _ => after.oldestTime
  | .reset => after.oldestTime

/-- A call does not reopen the window: what it would retain again, had the rate calls since the last
other call not been made, is nothing.
-/
def StaysShut (stats : RateStatistics) (settled : Int) : Call → Prop
  | .setWindowSize size nowMs =>
      0 < size
      → size ≤ stats.maxWindowSizeMs
      → stats.oldestTime ≤ max settled (nowMs - size + 1)
  | _ => True

/-- No call of the run reopens the window. -/
def NeverReopened : RateStatistics → Int → List Call → Prop
  | _, _, [] => True
  | stats, settled, call :: rest =>
      StaysShut stats settled call
      ∧ ∀ next ∈ (perform stats call).map Prod.fst,
          NeverReopened next (settledAfter call stats next settled) rest

instance (stats : RateStatistics) (settled : Int) (call : Call)
    : Decidable (StaysShut stats settled call) :=
  match call with
  | .setWindowSize size nowMs =>
      inferInstanceAs (Decidable (0 < size → size ≤ stats.maxWindowSizeMs
        → stats.oldestTime ≤ max settled (nowMs - size + 1)))
  | .update _ _ => isTrue trivial
  | .rate _ => isTrue trivial
  | .reset => isTrue trivial

instance decidableNeverReopened
    : (stats : RateStatistics) → (settled : Int) → (calls : List Call)
      → Decidable (NeverReopened stats settled calls)
  | _, _, [] => isTrue trivial
  | stats, settled, call :: rest =>
      have : ∀ next, Decidable (NeverReopened next (settledAfter call stats next settled) rest) :=
        fun next => decidableNeverReopened next (settledAfter call stats next settled) rest
      inferInstanceAs (Decidable (StaysShut stats settled call
        ∧ ∀ next ∈ (perform stats call).map Prod.fst,
            NeverReopened next (settledAfter call stats next settled) rest))

/-- The run without some of the rate calls is at most a cull behind, one that every call from now
on with the current window would do as well.
-/
structure Lags (kept full : RateStatistics) (settled now : Int) : Prop where
  behind
    : kept = full
      ∨ ∃ target,
          -kept.maxWindowSizeMs < target
          ∧ target ≤ now - kept.currentWindowSizeMs + 1
          ∧ kept.eraseTo target = some full
  settled : settled ≤ kept.oldestTime

variable {kept full : RateStatistics} {settled now t : Int}

theorem Lags.refl (stats : RateStatistics) {settled : Int} (before : settled ≤ stats.oldestTime)
    (now : Int)
    : Lags stats stats settled now := ⟨.inl rfl, before⟩

/-- Both runs have the same window sizes, and the shorter one's oldest time is no later. -/
theorem Lags.settings (lags : Lags kept full settled now)
    : kept.SameSettings full ∧ kept.oldestTime ≤ full.oldestTime := by
  rcases lags.behind with rfl | ⟨target, _, _, erases⟩
  · exact ⟨⟨rfl, rfl⟩, le_rfl⟩
  · rcases eraseTo_cases erases with ⟨rfl, _⟩ | ⟨_, past, oldest, settings⟩
    · exact ⟨⟨rfl, rfl⟩, le_rfl⟩
    · exact ⟨settings, by omega⟩

/-- Erasing to where the full run is, or further, makes up for the rate calls left out. -/
theorem Lags.eraseTo_eq (lags : Lags kept full settled now) {target : Int}
    (covers : full.oldestTime ≤ max kept.oldestTime target)
    : kept.eraseTo target = full.eraseTo target := by
  rcases lags.behind with rfl | ⟨earlier, above, _, erases⟩
  · rfl
  · rcases eraseTo_cases erases with ⟨rfl, _⟩ | ⟨_, past, oldest, _⟩
    · rfl
    · exact (eraseTo_eraseTo above (by omega) erases).symm

/-- Every call of the current window makes up for the rate calls left out. -/
theorem Lags.eraseOld_eq (lags : Lags kept full settled now) (later : now ≤ t)
    : kept.eraseOld t = full.eraseOld t := by
  obtain ⟨settings, _⟩ := lags.settings
  rw [eraseOld_eq_eraseTo, eraseOld_eq_eraseTo, settings.size]
  rcases lags.behind with rfl | ⟨earlier, above, inside, erases⟩
  · rfl
  · exact (eraseTo_eraseTo above (by omega) erases).symm

/-- A rate call left out is one more cull to make up for. -/
theorem Lags.skip (lags : Lags kept full settled now) (sound : full.Sound now) (later : now ≤ t)
    (time : 0 ≤ t)
    : ∃ next outcome,
        perform full (.rate t) = some (next, outcome)
        ∧ Lags kept next settled t
        ∧ next.Sound t := by
  obtain ⟨moved, erases, movedSound, _⟩ := sound.eraseOld later
  obtain ⟨settings, _⟩ := lags.settings
  have fits := sound.fits
  have maximum := settings.maximum
  have size := settings.size
  have together := (lags.eraseOld_eq later).trans erases
  rw [eraseOld_eq_eraseTo] at together
  exact ⟨moved, .rate (moved.rateOver t), by simp [perform, rate, erases],
    ⟨.inr ⟨_, by omega, le_rfl, together⟩, lags.settled⟩, movedSound⟩

/-- A data point brings the two runs together. -/
theorem Lags.update (lags : Lags kept full settled now) (sound : full.Sound now) (later : now ≤ t)
    (count : Size)
    : ∃ next,
        full.update count t = some next ∧ kept.update count t = some next ∧ next.Sound t := by
  obtain ⟨moved, erases, movedSound, _, _, spans⟩ := sound.eraseOld later
  obtain ⟨next, adds, nextSound⟩ := movedSound.addSample count spans
  obtain ⟨_, order⟩ := lags.settings
  have reached := sound.reached
  have keptErases := (lags.eraseOld_eq later).trans erases
  refine ⟨next, ?_, ?_, nextSound⟩
  · rw [RateStatistics.update, if_neg (by omega), erases]
    exact adds
  · rw [RateStatistics.update, if_neg (by omega), keptErases]
    exact adds

/-- A change of the window that does not reopen it brings the two runs together. -/
theorem Lags.resize (lags : Lags kept full settled now) (sound : full.Sound now) (later : now ≤ t)
    {size : Int} (positive : 0 < size) (fits : size ≤ full.maxWindowSizeMs)
    (shut : full.oldestTime ≤ max settled (t - size + 1))
    : ∃ next,
        full.setWindowSize size t = some (next, true)
        ∧ kept.setWindowSize size t = some (next, true)
        ∧ next.Sound t := by
  have resized : ({ full with currentWindowSizeMs := size } : RateStatistics).Sound now :=
    ⟨sound.shape.resized size, positive, fits, sound.reached⟩
  obtain ⟨next, erases, nextSound, _⟩ := resized.eraseOld later
  obtain ⟨settings, _⟩ := lags.settings
  have maximum := settings.maximum
  have before := lags.settled
  have covers : full.oldestTime ≤ max kept.oldestTime (t - size + 1) := by omega
  have together : ({ kept with currentWindowSizeMs := size } : RateStatistics).eraseOld t
      = some next := by
    show ({ kept with currentWindowSizeMs := size } : RateStatistics).eraseTo (t - size + 1)
      = some next
    rw [eraseTo_resized, lags.eraseTo_eq covers, ← eraseTo_resized]
    exact erases
  refine ⟨next, ?_, ?_, nextSound⟩
  · rw [setWindowSize, if_neg (by omega), erases]
    rfl
  · rw [setWindowSize, if_neg (by omega), together]
    rfl

/-- A call that is kept returns the same in both runs, as long as it does not reopen the window. -/
theorem Lags.step (lags : Lags kept full settled now) (sound : full.Sound now) {call : Call}
    (timed : call.time? = some t) (later : now ≤ t) (shut : StaysShut full settled call)
    : ∃ next keptNext outcome,
        perform full call = some (next, outcome)
        ∧ perform kept call = some (keptNext, outcome)
        ∧ Lags keptNext next (settledAfter call full next settled) t
        ∧ next.Sound t := by
  cases call with
  | update count at_ =>
      obtain rfl := Option.some.inj timed
      obtain ⟨next, updates, keptUpdates, nextSound⟩ := lags.update sound later count
      exact ⟨next, next, .none, by simp [perform, updates], by simp [perform, keptUpdates],
        .refl next le_rfl _, nextSound⟩
  | rate at_ =>
      obtain rfl := Option.some.inj timed
      obtain ⟨moved, erases, movedSound, _, onward, _⟩ := sound.eraseOld later
      have keptErases := (lags.eraseOld_eq later).trans erases
      obtain ⟨_, order⟩ := lags.settings
      exact ⟨moved, moved, .rate (moved.rateOver at_), by simp [perform, rate, erases],
        by simp [perform, rate, keptErases],
        .refl moved (lags.settled.trans (order.trans onward)) _, movedSound⟩
  | setWindowSize size at_ =>
      obtain rfl := Option.some.inj timed
      by_cases refused : size ≤ 0 ∨ size > full.maxWindowSizeMs
      · obtain ⟨settings, _⟩ := lags.settings
        have keptRefused : size ≤ 0 ∨ size > kept.maxWindowSizeMs := by rwa [← settings.maximum]
        refine ⟨full, kept, .resized false, by simp [perform, setWindowSize, refused],
          by simp [perform, setWindowSize, keptRefused], ?_,
          ⟨sound.shape, sound.positive, sound.fits, sound.reached.trans later⟩⟩
        rw [settledAfter, if_pos refused]
        refine ⟨?_, lags.settled⟩
        rcases lags.behind with equal | ⟨target, above, inside, erases⟩
        · exact .inl equal
        · exact .inr ⟨target, above, by omega, erases⟩
      · obtain ⟨next, resizes, keptResizes, nextSound⟩ :=
          lags.resize sound later (by omega) (by omega) (shut (by omega) (by omega))
        refine ⟨next, next, .resized true, by simp [perform, resizes],
          by simp [perform, keptResizes], ?_, nextSound⟩
        rw [settledAfter, if_neg refused]
        exact .refl next le_rfl _
  | reset => exact nomatch timed

/-- Every call but a reset is made at a time, by cases on the call. -/
theorem time?_of_ne_reset {call : Call} (timed : call ≠ .reset) : ∃ t, call.time? = some t := by
  cases call with
  | update count nowMs => exact ⟨nowMs, rfl⟩
  | rate nowMs => exact ⟨nowMs, rfl⟩
  | setWindowSize size nowMs => exact ⟨nowMs, rfl⟩
  | reset => exact absurd rfl timed

/-- Along a run that never reopens the window, leaving out rate calls changes nothing that the
other calls return, by induction on the calls.
-/
theorem Lags.performAll {calls : List Call} {keep : List Bool}
    (lags : Lags kept full settled now) (sound : full.Sound now) (start : 0 ≤ now)
    (aligned : keep.length = calls.length)
    (dropped : ∀ call ∈ select (keep.map not) calls, ∃ nowMs, call = .rate nowMs)
    (timed : ∀ call ∈ calls, call ≠ .reset)
    (monotonic : (now :: calls.filterMap Call.time?).Pairwise (· ≤ ·))
    (shut : NeverReopened full settled calls)
    : ∃ final keptFinal outcomes,
        performAll full calls = some (final, outcomes)
        ∧ performAll kept (select keep calls) = some (keptFinal, select keep outcomes) := by
  induction calls generalizing kept full settled now keep with
  | nil =>
      obtain rfl := List.length_eq_zero_iff.mp aligned
      exact ⟨full, kept, [], rfl, rfl⟩
  | cons call rest ih =>
      obtain ⟨t, time⟩ := time?_of_ne_reset (timed call List.mem_cons_self)
      rw [List.filterMap_cons_some time] at monotonic
      obtain ⟨fromNow, onward⟩ := List.pairwise_cons.mp monotonic
      have later : now ≤ t := fromNow t List.mem_cons_self
      have timedRest : ∀ call ∈ rest, call ≠ .reset :=
        fun other member => timed other (List.mem_cons_of_mem call member)
      cases keep with
      | nil => exact nomatch aligned
      | cons keeps keep =>
          have alignedRest : keep.length = rest.length := Nat.succ.inj aligned
          cases keeps with
          | true =>
              obtain ⟨next, keptNext, outcome, performs, keptPerforms, nextLags, nextSound⟩ :=
                lags.step sound time later shut.1
              obtain ⟨final, keptFinal, outcomes, runs, keptRuns⟩ :=
                ih nextLags nextSound (by omega) alignedRest dropped timedRest onward
                  (shut.2 next (by simp [performs]))
              exact ⟨final, keptFinal, outcome :: outcomes, performAll_cons performs runs,
                performAll_cons keptPerforms keptRuns⟩
          | false =>
              obtain ⟨nowMs, rfl⟩ := dropped call List.mem_cons_self
              obtain rfl : nowMs = t := Option.some.inj time
              obtain ⟨next, outcome, performs, nextLags, nextSound⟩ :=
                lags.skip sound later (by omega)
              obtain ⟨final, keptFinal, outcomes, runs, keptRuns⟩ :=
                ih nextLags nextSound (by omega) alignedRest
                  (fun other member => dropped other (List.mem_cons_of_mem _ member)) timedRest
                  onward (shut.2 next (by simp [performs]))
              exact ⟨final, keptFinal, outcome :: outcomes, performAll_cons performs runs, keptRuns⟩

/-- Reading the rate is not observable: for every sequence of calls on a new estimator at
non-negative, non-decreasing times, in which no change of the window reopens it past what the rate
calls before it have culled, leaving out any of the rate calls changes nothing that the remaining
calls return.
-/
theorem rate_read_only {maximum : Int} (positive : 1 ≤ maximum) (bounded : maximum < 2 ^ 31)
    (scale : Float32) (calls : List Call) (keep : List Bool)
    (aligned : keep.length = calls.length)
    (dropped : ∀ call ∈ select (keep.map not) calls, ∃ nowMs, call = .rate nowMs)
    (timed : ∀ call ∈ calls, call ≠ .reset)
    (nonneg : ∀ call ∈ calls, ∀ t ∈ call.time?, 0 ≤ t)
    (monotonic : (calls.filterMap Call.time?).Pairwise (· ≤ ·))
    (shut : NeverReopened (.construct maximum scale) (-maximum) calls)
    : ∃ final keptFinal outcomes,
        performAll (.construct maximum scale) calls = some (final, outcomes)
        ∧ performAll (.construct maximum scale) (select keep calls)
          = some (keptFinal, select keep outcomes) := by
  have sound : (construct maximum scale).Sound 0 :=
    ⟨wellShaped_construct positive bounded scale, positive, le_rfl,
      show -maximum ≤ 0 by omega⟩
  apply (Lags.refl (construct maximum scale) le_rfl 0).performAll sound le_rfl aligned dropped
    timed ?_ shut
  refine List.pairwise_cons.mpr ⟨?_, monotonic⟩
  intro t member
  obtain ⟨call, calls, time⟩ := List.mem_filterMap.mp member
  exact nonneg call calls t time

/-- Witness: two rate calls are left out of a run that narrows the window and then widens it again
after a sample.
-/
theorem rate_read_only_five_calls
    : ∃ final keptFinal outcomes,
        performAll (.construct 10 8000)
            [.update 1 0, .rate 3, .setWindowSize 5 3, .rate 9, .update 1 9, .setWindowSize 10 9,
              .rate 12]
          = some (final, outcomes)
        ∧ performAll (.construct 10 8000)
            [.update 1 0, .setWindowSize 5 3, .update 1 9, .setWindowSize 10 9, .rate 12]
          = some (keptFinal, select [true, false, true, false, true, true, true] outcomes) :=
  rate_read_only (by decide) (by decide) 8000
    [.update 1 0, .rate 3, .setWindowSize 5 3, .rate 9, .update 1 9, .setWindowSize 10 9, .rate 12]
    [true, false, true, false, true, true, true] rfl
    (by simp [select]) (by decide) (by decide) (by decide) (by decide)

/-- A run with a rate call after the window is narrowed and before it is widened again. -/
def reopening : List Call :=
  [.setWindowSize 2 0, .update 1 0, .update 1 1, .rate 5, .setWindowSize 10 5, .rate 5]

/-- Leaving out the first rate call makes the second one find the samples that the first one
culled: the widened window reaches back to them.
-/
theorem rate_call_hides_samples
    : ¬ ∃ final keptFinal outcomes,
          performAll (.construct 10 8000) reopening = some (final, outcomes)
          ∧ performAll (.construct 10 8000) (select [true, true, true, false, true, true] reopening)
            = some (keptFinal, select [true, true, true, false, true, true] outcomes) := by
  intro ⟨final, keptFinal, outcomes, runs, keptRuns⟩
  have results : ∃ last,
      performAll (.construct 10 8000) reopening
        = some (last, [.resized true, .none, .none, .rate none, .resized true, .rate none]) :=
    ⟨_, rfl⟩
  have keptResults : ∃ last value,
      performAll (.construct 10 8000) (select [true, true, true, false, true, true] reopening)
        = some (last, [.resized true, .none, .none, .resized true, .rate (some value)]) :=
    ⟨_, _, rfl⟩
  obtain ⟨last, equal⟩ := results
  obtain ⟨_, value, keptEqual⟩ := keptResults
  cases runs.symm.trans equal
  cases keptRuns.symm.trans keptEqual

end RtcBase.Rates

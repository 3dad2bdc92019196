import Mathlib.Data.BitVec

/-! `TimestampWrapAroundHandler`, which extends 32-bit timestamps to 64 bits. It keeps the timestamp
that it saw last and how often timestamps have wrapped so far; these two are a time that was not far
behind the latest one.
-/

namespace RtcBase.TimeUtils

-----------------------------------------------------------------------------------------
-- The handler
-----------------------------------------------------------------------------------------

/-- The fields of `TimestampWrapAroundHandler`; `_num_wrap` is an `int64_t`. -/
structure TimestampWrapAroundHandler where
  lastTs : BitVec 32
  numWrap : BitVec 64
  deriving DecidableEq, Repr

namespace TimestampWrapAroundHandler

def construct : TimestampWrapAroundHandler := ⟨0, -1⟩

/-- `TimestampWrapAroundHandler::unwrap`. -/
def unwrap (handler : TimestampWrapAroundHandler) (ts : BitVec 32)
    : BitVec 64 × TimestampWrapAroundHandler :=
  if handler.numWrap = -1 then (ts.setWidth 64, ⟨ts, 0⟩)
  else if ts < handler.lastTs then
    let numWrap :=
      if handler.lastTs ≥ 0xf0000000 ∧ ts < 0x0fffffff then handler.numWrap + 1
      else handler.numWrap
    (ts.setWidth 64 + numWrap <<< 32, ⟨ts, numWrap⟩)
  else if ts - handler.lastTs > 0xf0000000 then
    -- a backwards wrap, after which the last timestamp stays
    (ts.setWidth 64 + (handler.numWrap - 1) <<< 32, handler)
  else (ts.setWidth 64 + handler.numWrap <<< 32, ⟨ts, handler.numWrap⟩)

/-- What the handler returns for timestamps one after the other. -/
def unwrapAll : TimestampWrapAroundHandler → List (BitVec 32) → List (BitVec 64)
  | _, [] => []
  | handler, ts :: rest => (handler.unwrap ts).1 :: unwrapAll (handler.unwrap ts).2 rest

end TimestampWrapAroundHandler

-----------------------------------------------------------------------------------------
-- Times in a window
-----------------------------------------------------------------------------------------

/-- Each time is at most `R` behind the largest one before it and at most `F` ahead of it. -/
def InWindow (R F : Int) : Int → List Int → Prop
  | _, [] => True
  | M, t :: rest => M - R ≤ t ∧ t ≤ M + F ∧ InWindow R F (max M t) rest

-----------------------------------------------------------------------------------------
-- The time that the handler keeps
-----------------------------------------------------------------------------------------

namespace TimestampWrapAroundHandler

/-- The handler keeps a time: its low half as the last timestamp, its high half as the wraps. -/
structure Keeps (handler : TimestampWrapAroundHandler) (time : Int) : Prop where
  lastTs : handler.lastTs = BitVec.ofInt 32 time
  numWrap : handler.numWrap = BitVec.ofInt 64 (time / 2 ^ 32)
  lowest : 0 ≤ time
  highest : time < 2 ^ 63

/-- A timestamp and a number of wraps make a time of 64 bits. -/
theorem setWidth_add_shiftLeft (t wraps : Int)
    : (BitVec.ofInt 32 t).setWidth 64 + BitVec.ofInt 64 wraps <<< 32
      = BitVec.ofInt 64 (t % 2 ^ 32 + wraps * 2 ^ 32) := by
  have low : (BitVec.ofInt 32 t).setWidth 64 = BitVec.ofInt 64 (t % 2 ^ 32) := by
    apply BitVec.eq_of_toNat_eq
    rw [BitVec.toNat_setWidth, BitVec.toNat_ofInt, BitVec.toNat_ofInt]
    omega
  have high : BitVec.ofInt 64 wraps <<< 32 = BitVec.ofInt 64 (wraps * 2 ^ 32) := by
    rw [BitVec.shiftLeft_eq_mul_twoPow, BitVec.ofInt_mul]
    rfl
  rw [low, high, BitVec.ofInt_add]

/-- A handler that keeps a time has seen a timestamp. -/
theorem Keeps.numWrap_ne {handler : TimestampWrapAroundHandler} {time : Int}
    (keeps : handler.Keeps time)
    : handler.numWrap ≠ -1 := by
  have lowest := keeps.lowest
  have highest := keeps.highest
  intro fresh
  have wraps := congrArg BitVec.toNat (keeps.numWrap.symm.trans fresh)
  rw [BitVec.toNat_ofInt, show (-1 : BitVec 64).toNat = 2 ^ 64 - 1 from rfl] at wraps
  omega

/-- A time that is near the one that the handler keeps is returned. It is kept from then on, unless
it is of an earlier wrap: the cases are the wrap before, the same one and the one after.
-/
theorem unwrap_near {handler : TimestampWrapAroundHandler} {time t : Int}
    (keeps : handler.Keeps time) (behind : time - t ≤ 2 ^ 28 - 1) (ahead : t - time ≤ 2 ^ 28 - 1)
    (fits : t < 2 ^ 63)
    : (handler.unwrap (BitVec.ofInt 32 t)).1 = BitVec.ofInt 64 t
      ∧ (handler.unwrap (BitVec.ofInt 32 t)).2.Keeps
          (if t / 2 ^ 32 < time / 2 ^ 32 then time else t) := by
  have lowest := keeps.lowest
  have whole : t % 2 ^ 32 + t / 2 ^ 32 * 2 ^ 32 = t := by omega
  have lastTs : handler.lastTs.toNat = (time % 2 ^ 32).toNat := by
    rw [keeps.lastTs, BitVec.toNat_ofInt]
    rfl
  have ts : (BitVec.ofInt 32 t).toNat = (t % 2 ^ 32).toNat := by
    rw [BitVec.toNat_ofInt]
    rfl
  have high : (0xf0000000 : BitVec 32).toNat = 0xf0000000 := rfl
  have low : (0x0fffffff : BitVec 32).toNat = 0x0fffffff := rfl
  rw [unwrap, if_neg keeps.numWrap_ne]
  simp only [BitVec.lt_def, BitVec.le_def, ge_iff_le, gt_iff_lt, BitVec.toNat_sub, lastTs, ts, high,
    low]
  rcases Int.lt_trichotomy (t / 2 ^ 32) (time / 2 ^ 32) with before | same | after
  · have wraps : BitVec.ofInt 64 (time / 2 ^ 32) - 1 = BitVec.ofInt 64 (t / 2 ^ 32) := by
      rw [show time / 2 ^ 32 = t / 2 ^ 32 + 1 by omega, BitVec.ofInt_add]
      exact BitVec.add_sub_cancel _ _
    rw [if_neg (by omega), if_pos (by omega), if_pos before]
    refine ⟨?_, keeps⟩
    rw [keeps.numWrap, wraps, setWidth_add_shiftLeft, whole]
  · rw [if_neg (by omega : ¬ t / 2 ^ 32 < time / 2 ^ 32)]
    have kept : Keeps ⟨BitVec.ofInt 32 t, handler.numWrap⟩ t :=
      ⟨rfl, by rw [keeps.numWrap, same], by omega, fits⟩
    have returned
        : (BitVec.ofInt 32 t).setWidth 64 + handler.numWrap <<< 32 = BitVec.ofInt 64 t := by
      rw [keeps.numWrap, ← same, setWidth_add_shiftLeft, whole]
    by_cases less : (t % 2 ^ 32).toNat < (time % 2 ^ 32).toNat
    · rw [if_pos less, if_neg (by omega)]
      exact ⟨returned, kept⟩
    · rw [if_neg less, if_neg (by omega)]
      exact ⟨returned, kept⟩
  · have wraps : handler.numWrap + 1 = BitVec.ofInt 64 (t / 2 ^ 32) := by
      rw [show t / 2 ^ 32 = time / 2 ^ 32 + 1 by omega, BitVec.ofInt_add, keeps.numWrap]
      rfl
    rw [if_neg (by omega : ¬ t / 2 ^ 32 < time / 2 ^ 32), if_pos (by omega), if_pos (by omega), wraps]
    refine ⟨?_, rfl, rfl, by omega, fits⟩
    rw [setWidth_add_shiftLeft, whole]

/-- The window keeps all that follows near, by induction on the times. The time that the handler
keeps is at most `R` behind the largest one so far.
-/
theorem unwrapAll_near {R F : Int} (ahead : 0 ≤ F) (span : R + F ≤ 2 ^ 28 - 1)
    {handler : TimestampWrapAroundHandler} {time M : Int} (keeps : handler.Keeps time)
    (least : M - R ≤ time) (most : time ≤ M) {later : List Int} (window : InWindow R F M later)
    (fits : ∀ t ∈ later, t < 2 ^ 63)
    : handler.unwrapAll (later.map (BitVec.ofInt 32)) = later.map (BitVec.ofInt 64) := by
  induction later generalizing handler time M with
  | nil => rfl
  | cons t rest ih =>
      obtain ⟨lower, upper, window⟩ := window
      obtain ⟨fitsHere, fits⟩ := List.forall_mem_cons.mp fits
      obtain ⟨returned, kept⟩ := unwrap_near keeps (by omega) (by omega) fitsHere
      rw [List.map_cons, List.map_cons, unwrapAll, returned]
      congr 1
      refine ih kept ?_ ?_ window fits
      · split <;> omega
      · split <;> omega

/-- A new handler returns every time of a sequence from its low half, whatever wraps in it forwards
or backwards, if the times stay in a window around the largest one so far and the window is less
than a sixteenth of a wrap.
-/
theorem unwrapAll_exact {R F : Int} (behind : 0 ≤ R) (ahead : 0 ≤ F) (span : R + F ≤ 2 ^ 28 - 1)
    {first : Int} (lowest : 0 ≤ first) (highest : first < 2 ^ 32) {later : List Int}
    (window : InWindow R F first later) (fits : ∀ t ∈ later, -2 ^ 63 ≤ t ∧ t < 2 ^ 63)
    : (construct.unwrapAll ((first :: later).map (BitVec.ofInt 32))).map BitVec.toInt
      = first :: later := by
  have started
      : construct.unwrap (BitVec.ofInt 32 first)
        = ((BitVec.ofInt 32 first).setWidth 64, ⟨BitVec.ofInt 32 first, 0⟩) := if_pos rfl
  have returned : (BitVec.ofInt 32 first).setWidth 64 = BitVec.ofInt 64 first := by
    apply BitVec.eq_of_toNat_eq
    rw [BitVec.toNat_setWidth, BitVec.toNat_ofInt, BitVec.toNat_ofInt]
    omega
  have keeps : Keeps ⟨BitVec.ofInt 32 first, 0⟩ first := by
    refine ⟨rfl, ?_, lowest, by omega⟩
    rw [show first / 2 ^ 32 = 0 by omega]
    rfl
  have whole (t : Int) (fits : -2 ^ 63 ≤ t ∧ t < 2 ^ 63) : (BitVec.ofInt 64 t).toInt = t :=
    BitVec.toInt_ofInt_eq_self (by decide) fits.1 fits.2
  have rest := unwrapAll_near ahead span keeps (by omega) (Int.le_refl first) window
    fun t member => (fits t member).2
  rw [List.map_cons, unwrapAll, started, returned, rest, List.map_cons, List.map_map,
    whole first ⟨by omega, by omega⟩]
  congr 1
  calc later.map (BitVec.toInt ∘ BitVec.ofInt 64)
      = later.map id := List.map_congr_left fun t member => whole t (fits t member)
    _ = later := List.map_id later

/-- Times that wrap forwards, then backwards for a late one, and go on. -/
theorem unwrapAll_exact_late
    : (construct.unwrapAll
        ([2 ^ 32 - 5, 2 ^ 32 + 3, 2 ^ 32 - 2, 2 ^ 32 + 4].map (BitVec.ofInt 32))).map BitVec.toInt
      = [2 ^ 32 - 5, 2 ^ 32 + 3, 2 ^ 32 - 2, 2 ^ 32 + 4] :=
  @unwrapAll_exact 10 20 (by decide) (by decide) (by decide) (2 ^ 32 - 5) (by decide) (by decide)
    [2 ^ 32 + 3, 2 ^ 32 - 2, 2 ^ 32 + 4] (by simp [InWindow]) (by simp)

end TimestampWrapAroundHandler

end RtcBase.TimeUtils

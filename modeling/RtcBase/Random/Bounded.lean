import Mathlib.Data.Set.Card
import RtcBase.Library.Scaling
import RtcBase.Random.Outputs

/-! The integers of `Random` in a range. The low half of an output is scaled to the range by a
multiplication and a shift.
-/

namespace RtcBase.Random

open Library

/-- What `Random::rand(uint32_t)` does with the 32-bit draw `x`. -/
def scaleDraw (x t : BitVec 32) : BitVec 32 :=
  let result := x.setWidth 64 * (t.setWidth 64 + 1)
  (result >>> 32).setWidth 32

/-- `Random::rand(uint32_t)`. -/
def rand (state : BitVec 64) (t : BitVec 32) : BitVec 32 × BitVec 64 :=
  let (output, state) := nextOutput state
  (scaleDraw (output.setWidth 32) t, state)

/-- `Random::rand(uint32_t, uint32_t)`. -/
def randUnsigned (state : BitVec 64) (low high : BitVec 32) : BitVec 32 × BitVec 64 :=
  let (drawn, state) := rand state (high - low)
  (drawn + low, state)

/-- `Random::rand(int32_t, int32_t)`, which computes with `int64_t`. -/
def randSigned (state : BitVec 64) (low high : BitVec 32) : BitVec 32 × BitVec 64 :=
  let lowI64 := low.signExtend 64
  let (drawn, state) := rand state ((high.signExtend 64 - lowI64).setWidth 32)
  ((drawn.setWidth 64 + lowI64).setWidth 32, state)

-----------------------------------------------------------------------------------------
-- Scaled draws
-----------------------------------------------------------------------------------------

/-- The product of a draw and the number of values is below 2^64. -/
theorem product_lt (x t : BitVec 32) : x.toNat * (t.toNat + 1) < 2 ^ 64 := by
  calc x.toNat * (t.toNat + 1)
      ≤ x.toNat * 2 ^ 32 := Nat.mul_le_mul_left _ t.isLt
    _ < 2 ^ 32 * 2 ^ 32 := Nat.mul_lt_mul_of_pos_right x.isLt (by decide)

/-- The product is that of the numbers. -/
theorem toNat_product (x t : BitVec 32)
    : (x.setWidth 64 * (t.setWidth 64 + 1)).toNat = x.toNat * (t.toNat + 1) := by
  have draw : (x.setWidth 64).toNat = x.toNat := by
    have := x.isLt
    rw [BitVec.toNat_setWidth]
    omega
  have values : (t.setWidth 64 + 1).toNat = t.toNat + 1 := by
    have := t.isLt
    rw [BitVec.toNat_add, BitVec.toNat_setWidth, show (1 : BitVec 64).toNat = 1 from rfl]
    omega
  rw [BitVec.toNat_mul, draw, values, Nat.mod_eq_of_lt (product_lt x t)]

/-- A draw is scaled as numbers are. -/
theorem toNat_scaleDraw (x t : BitVec 32)
    : (scaleDraw x t).toNat = x.toNat * (t.toNat + 1) / 2 ^ 32 := by
  have scaled := scaled_lt x.isLt (Nat.succ_pos t.toNat)
  have fits := t.isLt
  rw [scaleDraw, BitVec.toNat_setWidth, BitVec.toNat_ushiftRight, toNat_product,
    Nat.shiftRight_eq_div_pow]
  exact Nat.mod_eq_of_lt (Nat.lt_of_lt_of_le scaled fits)

theorem scaleDraw_le (x t : BitVec 32) : (scaleDraw x t).toNat ≤ t.toNat := by
  rw [toNat_scaleDraw]
  exact Nat.le_of_lt_succ (scaled_lt x.isLt (Nat.succ_pos t.toNat))

/-- The draws of a value, counted among all. -/
theorem card_scaleDraw {t value : BitVec 32} (inside : value ≤ t)
    : ((Finset.range (2 ^ 32)).filter fun x => scaleDraw (BitVec.ofNat 32 x) t = value).card
        = 2 ^ 32 / (t.toNat + 1)
      ∨ ((Finset.range (2 ^ 32)).filter fun x => scaleDraw (BitVec.ofNat 32 x) t = value).card
        = 2 ^ 32 / (t.toNat + 1) + 1 := by
  have same
      : (Finset.range (2 ^ 32)).filter (fun x => scaleDraw (BitVec.ofNat 32 x) t = value)
        = (Finset.range (2 ^ 32)).filter (fun x => x * (t.toNat + 1) / 2 ^ 32 = value.toNat) := by
    refine Finset.filter_congr fun x drawn => ?_
    rw [← BitVec.toNat_inj, toNat_scaleDraw, BitVec.toNat_ofNat,
      Nat.mod_eq_of_lt (Finset.mem_range.mp drawn)]
  rw [same]
  exact card_scaled (by decide) (Nat.lt_succ_of_le inside)

-----------------------------------------------------------------------------------------
-- Draws of a generator
-----------------------------------------------------------------------------------------

/-- The 32-bit draw of `Random::rand(uint32_t)`: an output, cast to `uint32_t`. -/
def draw (state : BitVec 64) : BitVec 32 := (nextOutput state).1.setWidth 32

/-- A number in a range is a scaled draw, and the state is updated once. -/
theorem rand_eq (state : BitVec 64) (t : BitVec 32)
    : rand state t = (scaleDraw (draw state) t, nextState state) := rfl

/-- Every draw has a state. -/
theorem draw_surjective : Function.Surjective draw := by
  intro x
  obtain ⟨state, output⟩ := output_bijective.surjective (x.setWidth 64)
  refine ⟨state, ?_⟩
  have sameOutput : (nextOutput state).1 = x.setWidth 64 := output
  rw [draw, sameOutput, BitVec.setWidth_setWidth_of_le x (by decide), BitVec.setWidth_eq]

/-- The 32-bit words with a property, counted by their numbers. -/
theorem ncard_words (property : BitVec 32 → Prop) [DecidablePred property]
    : {x | property x}.ncard
      = ((Finset.range (2 ^ 32)).filter fun x => property (BitVec.ofNat 32 x)).card := by
  have numbers
      : {x | property x}
        = BitVec.ofNat 32 ''
            ((Finset.range (2 ^ 32)).filter fun x => property (BitVec.ofNat 32 x)) := by
    ext x
    constructor
    · intro holds
      have same : BitVec.ofNat 32 x.toNat = x := by rw [BitVec.ofNat_toNat, BitVec.setWidth_eq]
      refine ⟨x.toNat, ?_, same⟩
      rw [Finset.mem_coe, Finset.mem_filter, Finset.mem_range, same]
      exact ⟨x.isLt, holds⟩
    · rintro ⟨n, member, rfl⟩
      exact (Finset.mem_filter.mp member).2
  have injective
      : Set.InjOn (BitVec.ofNat 32)
          ((Finset.range (2 ^ 32)).filter fun x => property (BitVec.ofNat 32 x)) := by
    intro first firstMember second secondMember same
    have firstBound := Finset.mem_range.mp (Finset.mem_filter.mp firstMember).1
    have secondBound := Finset.mem_range.mp (Finset.mem_filter.mp secondMember).1
    have numbers := congrArg BitVec.toNat same
    rwa [BitVec.toNat_ofNat, BitVec.toNat_ofNat, Nat.mod_eq_of_lt firstBound,
      Nat.mod_eq_of_lt secondBound] at numbers
  rw [numbers, injective.ncard_image, Set.ncard_coe_finset]

/-- The draws with which a number in a range comes out, counted among all. -/
theorem ncard_rand {t value : BitVec 32} (inside : value ≤ t)
    : {x | ∃ state, draw state = x ∧ (rand state t).1 = value}.ncard = 2 ^ 32 / (t.toNat + 1)
      ∨ {x | ∃ state, draw state = x ∧ (rand state t).1 = value}.ncard
        = 2 ^ 32 / (t.toNat + 1) + 1 := by
  have scaled
      : {x | ∃ state, draw state = x ∧ (rand state t).1 = value}
        = {x | scaleDraw x t = value} := by
    ext x
    constructor
    · rintro ⟨state, rfl, same⟩
      exact same
    · intro same
      obtain ⟨state, rfl⟩ := draw_surjective x
      exact ⟨state, rfl, same⟩
  rw [scaled, ncard_words]
  exact card_scaleDraw inside

-----------------------------------------------------------------------------------------
-- Ranges
-----------------------------------------------------------------------------------------

theorem rand_le (state : BitVec 64) (t : BitVec 32) : (rand state t).1.toNat ≤ t.toNat :=
  scaleDraw_le _ t

/-- The sum of the scaled draw and the lower end does not wrap. -/
theorem toNat_randUnsigned (state : BitVec 64) {low high : BitVec 32} (order : low ≤ high)
    : (randUnsigned state low high).1.toNat
      = low.toNat + (scaleDraw (draw state) (high - low)).toNat := by
  have drawn := scaleDraw_le (draw state) (high - low)
  have ends : low.toNat ≤ high.toNat := order
  have fits := high.isLt
  rw [BitVec.toNat_sub_of_le order] at drawn
  rw [randUnsigned, rand_eq, BitVec.toNat_add, Nat.add_comm]
  exact Nat.mod_eq_of_lt (by omega)

theorem randUnsigned_mem (state : BitVec 64) {low high : BitVec 32} (order : low ≤ high)
    : low ≤ (randUnsigned state low high).1 ∧ (randUnsigned state low high).1 ≤ high := by
  have drawn := scaleDraw_le (draw state) (high - low)
  have ends : low.toNat ≤ high.toNat := order
  rw [BitVec.toNat_sub_of_le order] at drawn
  rw [BitVec.le_def, BitVec.le_def, toNat_randUnsigned state order]
  omega

/-- The low half of an integer of 64 bits. -/
theorem setWidth_ofInt (n : Int) : (BitVec.ofInt 64 n).setWidth 32 = BitVec.ofInt 32 n := by
  apply BitVec.eq_of_toNat_eq
  rw [BitVec.toNat_setWidth, BitVec.toNat_ofInt, BitVec.toNat_ofInt]
  omega

/-- The distance of the ends, cast to `uint32_t`. -/
theorem setWidth_distance (low high : BitVec 32)
    : (high.signExtend 64 - low.signExtend 64).setWidth 32
      = BitVec.ofInt 32 (high.toInt - low.toInt) := by
  rw [BitVec.signExtend, BitVec.signExtend, sub_eq_add_neg, ← BitVec.ofInt_neg, ← BitVec.ofInt_add,
    setWidth_ofInt, Int.sub_eq_add_neg]

/-- A draw scaled to the distance of the ends is at most that, which has 32 bits. -/
theorem scaleDraw_distance_le (x : BitVec 32) {low high : BitVec 32}
    (order : low.toInt ≤ high.toInt)
    : ((scaleDraw x (BitVec.ofInt 32 (high.toInt - low.toInt))).toNat : Int)
      ≤ high.toInt - low.toInt := by
  have least := low.le_toInt
  have most := high.toInt_lt
  have scaled := scaleDraw_le x (BitVec.ofInt 32 (high.toInt - low.toInt))
  rw [BitVec.toNat_ofInt] at scaled
  omega

/-- The scaled draw is put on the lower end with 64 bits, and the sum has 32. -/
theorem toInt_randSigned (state : BitVec 64) {low high : BitVec 32}
    (order : low.toInt ≤ high.toInt)
    : (randSigned state low high).1.toInt
      = low.toInt + (scaleDraw (draw state) (BitVec.ofInt 32 (high.toInt - low.toInt))).toNat := by
  have least := low.le_toInt
  have most := high.toInt_lt
  have drawn := scaleDraw_distance_le (draw state) order
  have sum
      : (randSigned state low high).1
        = BitVec.ofInt 32
            ((scaleDraw (draw state) (BitVec.ofInt 32 (high.toInt - low.toInt))).toNat
              + low.toInt) := by
    rw [← setWidth_ofInt, BitVec.ofInt_add, BitVec.ofInt_natCast, BitVec.ofNat_toNat,
      ← setWidth_distance]
    rfl
  rw [sum, BitVec.toInt_ofInt_eq_self (by decide) (by omega) (by omega), Int.add_comm]

theorem randSigned_mem (state : BitVec 64) {low high : BitVec 32} (order : low.toInt ≤ high.toInt)
    : low.toInt ≤ (randSigned state low high).1.toInt
      ∧ (randSigned state low high).1.toInt ≤ high.toInt := by
  have drawn := scaleDraw_distance_le (draw state) order
  rw [toInt_randSigned state order]
  omega

/-- A draw is scaled to `[0, t]` without overflow, and every value there has as many draws as any
other up to one. A number in a range is the scaled draw of the generator, which is any 32-bit word,
and it is in the range, whatever the state.
-/
theorem rand_uniform
    : (∀ x t : BitVec 32,
          x.toNat * (t.toNat + 1) < 2 ^ 64
          ∧ (scaleDraw x t).toNat = x.toNat * (t.toNat + 1) / 2 ^ 32
          ∧ scaleDraw x t ≤ t)
      ∧ (∀ t value : BitVec 32, value ≤ t →
          ((Finset.range (2 ^ 32)).filter fun x => scaleDraw (BitVec.ofNat 32 x) t = value).card
              = 2 ^ 32 / (t.toNat + 1)
            ∨ ((Finset.range (2 ^ 32)).filter fun x => scaleDraw (BitVec.ofNat 32 x) t = value).card
              = 2 ^ 32 / (t.toNat + 1) + 1)
      ∧ (∀ (state : BitVec 64) (t : BitVec 32), (rand state t).1 ≤ t)
      ∧ (∀ (state : BitVec 64) (low high : BitVec 32), low ≤ high →
          low ≤ (randUnsigned state low high).1 ∧ (randUnsigned state low high).1 ≤ high)
      ∧ (∀ (state : BitVec 64) (low high : BitVec 32), low.toInt ≤ high.toInt →
          low.toInt ≤ (randSigned state low high).1.toInt
          ∧ (randSigned state low high).1.toInt ≤ high.toInt)
      ∧ Function.Surjective draw
      ∧ (∀ (state : BitVec 64) (t : BitVec 32),
          rand state t = (scaleDraw (draw state) t, (nextOutput state).2))
      ∧ (∀ t value : BitVec 32, value ≤ t →
          Set.ncard {x | ∃ state, draw state = x ∧ (rand state t).1 = value}
              = 2 ^ 32 / (t.toNat + 1)
            ∨ Set.ncard {x | ∃ state, draw state = x ∧ (rand state t).1 = value}
              = 2 ^ 32 / (t.toNat + 1) + 1)
      ∧ (∀ (state : BitVec 64) (low high : BitVec 32), low ≤ high →
          (randUnsigned state low high).1.toNat
              = low.toNat + (scaleDraw (draw state) (high - low)).toNat
            ∧ (randUnsigned state low high).2 = (nextOutput state).2)
      ∧ ∀ (state : BitVec 64) (low high : BitVec 32), low.toInt ≤ high.toInt →
          (randSigned state low high).1.toInt
              = low.toInt
                + (scaleDraw (draw state) (BitVec.ofInt 32 (high.toInt - low.toInt))).toNat
            ∧ (randSigned state low high).2 = (nextOutput state).2 := by
  refine ⟨?_, ?_, ?_, ?_, ?_, draw_surjective, rand_eq, ?_, ?_, ?_⟩
  · intro x t
    exact ⟨product_lt x t, toNat_scaleDraw x t, scaleDraw_le x t⟩
  · intro t value inside
    exact card_scaleDraw inside
  · exact rand_le
  · intro state low high order
    exact randUnsigned_mem state order
  · intro state low high order
    exact randSigned_mem state order
  · intro t value inside
    exact ncard_rand inside
  · intro state low high order
    exact ⟨toNat_randUnsigned state order, rfl⟩
  · intro state low high order
    exact ⟨toInt_randSigned state order, rfl⟩

/-- The value 5 of a die and its draws, its throws, and numbers from all of those with 32 bits. -/
theorem rand_uniform_ranges
    : (((Finset.range (2 ^ 32)).filter fun x => scaleDraw (BitVec.ofNat 32 x) 5 = 5).card = 715827882
        ∨ ((Finset.range (2 ^ 32)).filter fun x => scaleDraw (BitVec.ofNat 32 x) 5 = 5).card
          = 715827883)
      ∧ (1 ≤ (randUnsigned 7 1 6).1 ∧ (randUnsigned 7 1 6).1 ≤ 6)
      ∧ (-2147483648 ≤ (randSigned 7 (BitVec.intMin 32) (BitVec.intMax 32)).1.toInt
        ∧ (randSigned 7 (BitVec.intMin 32) (BitVec.intMax 32)).1.toInt ≤ 2147483647)
      ∧ (∃ state, draw state = 0xFFFFFFFF ∧ rand state 5 = (5, (nextOutput state).2))
      ∧ (Set.ncard {x | ∃ state, draw state = x ∧ (rand state 5).1 = 5} = 715827882
        ∨ Set.ncard {x | ∃ state, draw state = x ∧ (rand state 5).1 = 5} = 715827883)
      ∧ ((randUnsigned 7 1 6).1.toNat = 1 + (scaleDraw (draw 7) 5).toNat
        ∧ (randUnsigned 7 1 6).2 = (nextOutput 7).2)
      ∧ (randSigned 7 (BitVec.intMin 32) (BitVec.intMax 32)).1.toInt
        = -2147483648 + (scaleDraw (draw 7) 0xFFFFFFFF).toNat := by
  obtain ⟨-, preimages, -, unsigned, signed, anyDraw, isDraw, draws, unsignedDraw, signedDraw⟩ :=
    rand_uniform
  refine ⟨preimages 5 5 (by decide), unsigned 7 1 6 (by decide), ?_, ?_, draws 5 5 (by decide),
    unsignedDraw 7 1 6 (by decide), ?_⟩
  · exact signed 7 (BitVec.intMin 32) (BitVec.intMax 32) (by decide)
  · obtain ⟨state, greatest⟩ := anyDraw 0xFFFFFFFF
    have isScaled := isDraw state 5
    rw [greatest] at isScaled
    exact ⟨state, greatest, isScaled⟩
  · exact (signedDraw 7 (BitVec.intMin 32) (BitVec.intMax 32) (by decide)).1

end RtcBase.Random

import Mathlib.Data.BitVec
import Mathlib.Data.Fintype.EquivFin
import Mathlib.Logic.Function.Iterate

/-! Maps of words that lose nothing. A word and its shift are added without carries, which is undone
because a shift that is repeated often enough leaves nothing; and a multiplier with an inverse is
divided out.
-/

namespace RtcBase.Library

variable {w : Nat}

instance finiteWord : Finite (BitVec w) :=
  .of_injective BitVec.toFin fun _ _ => BitVec.eq_of_toFin_eq

/-- Adding an additive map of words that vanishes when it is repeated is injective: the difference of
two words with one image is its own image, again and again.
-/
theorem xor_map_injective {map : BitVec w → BitVec w} (times : Nat)
    (additive : ∀ x y, map (x ^^^ y) = map x ^^^ map y) (vanishes : ∀ x, map^[times] x = 0)
    : Function.Injective fun x => x ^^^ map x := by
  intro x y same
  have images : x ^^^ y = map x ^^^ map y := by
    have moved := congrArg (· ^^^ (map x ^^^ y)) same
    calc x ^^^ y = x ^^^ map x ^^^ (map x ^^^ y) := by
          rw [BitVec.xor_assoc, ← BitVec.xor_assoc (map x), BitVec.xor_self, BitVec.zero_xor]
      _ = y ^^^ map y ^^^ (map x ^^^ y) := moved
      _ = map x ^^^ map y := by
          rw [BitVec.xor_comm y, BitVec.xor_comm (map x), BitVec.xor_assoc, ← BitVec.xor_assoc y,
            BitVec.xor_self, BitVec.zero_xor, BitVec.xor_comm]
  have fixed : map (x ^^^ y) = x ^^^ y := by rw [additive, ← images]
  have none_left := vanishes (x ^^^ y)
  rw [Function.iterate_fixed fixed] at none_left
  exact BitVec.xor_eq_zero_iff.mp none_left

theorem iterate_ushiftRight (shift times : Nat) (x : BitVec w)
    : (fun y : BitVec w => y >>> shift)^[times] x = x >>> (shift * times) := by
  induction times generalizing x with
  | zero => simp
  | succ times ih =>
      rw [Function.iterate_succ_apply, ih, ← BitVec.shiftRight_add]
      congr 1
      rw [Nat.mul_succ, Nat.add_comm]

theorem iterate_shiftLeft (shift times : Nat) (x : BitVec w)
    : (fun y : BitVec w => y <<< shift)^[times] x = x <<< (shift * times) := by
  induction times generalizing x with
  | zero => simp
  | succ times ih =>
      rw [Function.iterate_succ_apply, ih, ← BitVec.shiftLeft_add]
      congr 1
      rw [Nat.mul_succ, Nat.add_comm]

/-- A word and its shift to the right determine the word. -/
theorem xor_ushiftRight_bijective {shift : Nat} (positive : 0 < shift)
    : Function.Bijective fun x : BitVec w => x ^^^ (x >>> shift) := by
  rw [← Finite.injective_iff_bijective]
  refine xor_map_injective w (BitVec.ushiftRight_xor_distrib · · shift) (fun x => ?_)
  rw [iterate_ushiftRight shift w]
  exact BitVec.ushiftRight_eq_zero (Nat.le_mul_of_pos_left w positive)

/-- A word and its shift to the left determine the word. -/
theorem xor_shiftLeft_bijective {shift : Nat} (positive : 0 < shift)
    : Function.Bijective fun x : BitVec w => x ^^^ (x <<< shift) := by
  rw [← Finite.injective_iff_bijective]
  refine xor_map_injective w (BitVec.shiftLeft_xor_distrib · · shift) (fun x => ?_)
  rw [iterate_shiftLeft shift w]
  exact BitVec.shiftLeft_eq_zero (Nat.le_mul_of_pos_left w positive)

/-- A multiplier with an inverse is divided out. -/
theorem mul_bijective_of_inverse {multiplier inverse : BitVec w} (unit : multiplier * inverse = 1)
    : Function.Bijective fun x : BitVec w => x * multiplier := by
  rw [← Finite.injective_iff_bijective]
  intro x y same
  calc x = x * multiplier * inverse := by rw [mul_assoc, unit, mul_one]
    _ = y * multiplier * inverse := by rw [show x * multiplier = y * multiplier from same]
    _ = y := by rw [mul_assoc, unit, mul_one]

end RtcBase.Library

import Mathlib.Data.BitVec
import RtcBase.Library.XorShift

/-! `Random`, a generator of 64-bit outputs, and its outputs over whole runs. The state is updated by
a bijection that keeps zero, so that a generator with another seed never comes to it, and no output
of it is zero.
-/

namespace RtcBase.Random

open Library

/-- `Random::next_output`: the output, and the state that it leaves. -/
def nextOutput (state : BitVec 64) : BitVec 64 × BitVec 64 :=
  let state := state ^^^ (state >>> 12)
  let state := state ^^^ (state <<< 25)
  let state := state ^^^ (state >>> 27)
  (state * 2685821657736338717, state)

/-- The multiplier of an output. -/
def kMultiplier : BitVec 64 := 2685821657736338717

/-- The state that `Random::next_output` leaves. -/
def nextState (state : BitVec 64) : BitVec 64 := (nextOutput state).2

/-- A number of calls of `next_output` in turn: their outputs, and the state that they leave. -/
def nextOutputs : Nat → BitVec 64 → List (BitVec 64) × BitVec 64
  | 0, state => ([], state)
  | calls + 1, state =>
      let (output, next) := nextOutput state
      let (outputs, last) := nextOutputs calls next
      (output :: outputs, last)

theorem nextOutput_eq (state : BitVec 64)
    : nextOutput state = (nextState state * kMultiplier, nextState state) := rfl

theorem nextState_zero : nextState 0 = 0 := by decide

/-- The update is three steps that lose nothing. -/
theorem nextState_bijective : Function.Bijective nextState := by
  have right := xor_ushiftRight_bijective (w := 64) (show 0 < 27 by decide)
  have left := xor_shiftLeft_bijective (w := 64) (show 0 < 25 by decide)
  have first := xor_ushiftRight_bijective (w := 64) (show 0 < 12 by decide)
  exact right.comp (left.comp first)

/-- The multiplier is odd, so that it has an inverse. -/
theorem mul_kMultiplier_bijective : Function.Bijective (· * kMultiplier) :=
  @mul_bijective_of_inverse 64 kMultiplier 6415128727920758069 (by decide)

/-- No two states have the same output, and every output has a state. -/
theorem output_bijective : Function.Bijective fun state => (nextOutput state).1 :=
  mul_kMultiplier_bijective.comp nextState_bijective

/-- A state other than zero is not updated to zero. -/
theorem nextState_ne_zero {state : BitVec 64} (nonzero : state ≠ 0) : nextState state ≠ 0 := by
  intro vanished
  exact nonzero (nextState_bijective.injective (vanished.trans nextState_zero.symm))

/-- The output of a state other than zero is not zero. -/
theorem output_ne_zero {state : BitVec 64} (nonzero : state ≠ 0) : (nextOutput state).1 ≠ 0 := by
  intro vanished
  rw [nextOutput_eq] at vanished
  apply nextState_ne_zero nonzero
  exact mul_kMultiplier_bijective.injective (vanished.trans (BitVec.zero_mul).symm)

theorem length_nextOutputs (calls : Nat) (state : BitVec 64)
    : (nextOutputs calls state).1.length = calls := by
  induction calls generalizing state with
  | zero => rfl
  | succ calls ih => exact congrArg (· + 1) (ih (nextState state))

/-- Calls keep the state from zero and draw no zero, by induction on their number. -/
theorem nextOutputs_ne_zero (calls : Nat) {state : BitVec 64} (nonzero : state ≠ 0)
    : (nextOutputs calls state).2 ≠ 0 ∧ ∀ output ∈ (nextOutputs calls state).1, output ≠ 0 := by
  induction calls generalizing state with
  | zero => exact ⟨nonzero, by simp [nextOutputs]⟩
  | succ calls ih =>
      obtain ⟨last, later⟩ := ih (nextState_ne_zero nonzero)
      refine ⟨last, ?_⟩
      intro output drawn
      rcases List.mem_cons.mp drawn with rfl | drawn
      · exact output_ne_zero nonzero
      · exact later output drawn

/-- The state is updated by a bijection that keeps zero, the output is the product of the state with
a multiplier that loses nothing, and no run from another seed comes to zero or draws it.
-/
theorem generator_never_degenerates
    : Function.Bijective nextState
      ∧ nextState 0 = 0
      ∧ Function.Bijective (· * kMultiplier)
      ∧ (∀ state, nextOutput state = (nextState state * kMultiplier, nextState state))
      ∧ ∀ (seed : BitVec 64) (calls : Nat), seed ≠ 0 →
          (nextOutputs calls seed).2 ≠ 0
          ∧ (nextOutputs calls seed).1.length = calls
          ∧ ∀ output ∈ (nextOutputs calls seed).1, output ≠ 0 := by
  refine ⟨nextState_bijective, nextState_zero, mul_kMultiplier_bijective, nextOutput_eq, ?_⟩
  intro seed calls nonzero
  obtain ⟨last, drawn⟩ := nextOutputs_ne_zero calls nonzero
  exact ⟨last, length_nextOutputs calls seed, drawn⟩

/-- Two calls from the seed 1. -/
theorem generator_never_degenerates_from_one
    : nextOutputs 2 1 = ([0x47E4CE4B896CDD1D, 0xABCFA6A8E079651D], 0x4004000802801)
      ∧ (nextOutputs 2 1).2 ≠ 0
      ∧ ∀ output ∈ (nextOutputs 2 1).1, output ≠ 0 := by
  obtain ⟨-, -, -, -, runs⟩ := generator_never_degenerates
  obtain ⟨last, -, drawn⟩ := runs 1 2 (by decide)
  exact ⟨by decide, last, drawn⟩

end RtcBase.Random

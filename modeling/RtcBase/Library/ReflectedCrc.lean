import Mathlib.Data.BitVec

/-! Reflected cyclic redundancy checks of any width. The message enters one bit at a time, the lowest
bit of each word first. Several steps can be taken at once with the register's low bits alone: the
rest of the register only moves down.
-/

namespace RtcBase.Library

variable {width : Nat}

/-- One bit enters at the low end; the polynomial is added when a bit leaves there. -/
def crcBit (polynomial c : BitVec width) (bit : Bool) : BitVec width :=
  if c.getLsbD 0 ^^ bit then polynomial ^^^ (c >>> 1) else c >>> 1

def crcBits (polynomial c : BitVec width) (bits : List Bool) : BitVec width :=
  bits.foldl (crcBit polynomial) c

/-- The lowest bits of a word, the lowest first. -/
def lowBits {size : Nat} (n : Nat) (word : BitVec size) : List Bool := (List.range n).map word.getLsbD

/-- The register after it has been shifted without new bits. -/
def crcShift (polynomial c : BitVec width) (n : Nat) : BitVec width :=
  crcBits polynomial c (List.replicate n false)

theorem crcBits_append (polynomial c : BitVec width) (first second : List Bool)
    : crcBits polynomial c (first ++ second)
      = crcBits polynomial (crcBits polynomial c first) second :=
  List.foldl_append

theorem lowBits_succ {size : Nat} (n : Nat) (word : BitVec size)
    : lowBits (n + 1) word = word.getLsbD 0 :: lowBits n (word >>> 1) := by
  rw [lowBits, List.range_succ_eq_map, List.map_cons, List.map_map, lowBits]
  congr 1
  refine List.map_congr_left fun i _ => ?_
  rw [Function.comp_apply, BitVec.getLsbD_ushiftRight, Nat.add_comm]

/-- A word that is in the register already enters bit by bit as the register shifts, and what has not
entered yet moves down. By induction on the bits.
-/
theorem crcShift_xor (polynomial c word : BitVec width) (n : Nat)
    : crcShift polynomial (c ^^^ word) n
      = crcBits polynomial c (lowBits n word) ^^^ (word >>> n) := by
  induction n generalizing c word with
  | zero => rw [BitVec.ushiftRight_zero]; rfl
  | succ n ih =>
      have step
          : crcBit polynomial (c ^^^ word) false
            = crcBit polynomial c (word.getLsbD 0) ^^^ (word >>> 1) := by
        simp only [crcBit, BitVec.getLsbD_xor, Bool.xor_false, BitVec.ushiftRight_xor_distrib]
        split
        · rw [BitVec.xor_assoc]
        · rfl
      calc crcShift polynomial (c ^^^ word) (n + 1)
          = crcShift polynomial (crcBit polynomial (c ^^^ word) false) n := rfl
        _ = crcBits polynomial (crcBit polynomial c (word.getLsbD 0)) (lowBits n (word >>> 1))
              ^^^ (word >>> 1 >>> n) := by rw [step, ih]
        _ = crcBits polynomial c (lowBits (n + 1) word) ^^^ (word >>> (n + 1)) := by
            rw [lowBits_succ, ← BitVec.shiftRight_add, Nat.add_comm 1 n]
            rfl

/-- The bits of a mask for the low end of a word. -/
def IsLowMask (n : Nat) (mask : BitVec width) : Prop :=
  ∀ i < width, mask.getLsbD i = decide (i < n)

/-- The register shifts by its low bits; the others move down. -/
theorem crcShift_eq (polynomial : BitVec width) {n : Nat} {mask : BitVec width}
    (low : IsLowMask n mask) (c : BitVec width)
    : crcShift polynomial c n = crcShift polynomial (c &&& mask) n ^^^ (c >>> n) := by
  have whole : c = (c &&& mask) ^^^ (c &&& ~~~mask) := by
    apply BitVec.eq_of_getLsbD_eq
    intro i inside
    simp only [BitVec.getLsbD_xor, BitVec.getLsbD_and, BitVec.getLsbD_not, inside, decide_true,
      Bool.true_and]
    cases c.getLsbD i <;> cases mask.getLsbD i <;> rfl
  have quiet : lowBits n (c &&& ~~~mask) = List.replicate n false := by
    refine List.eq_replicate_iff.mpr ⟨by simp [lowBits], ?_⟩
    intro bit member
    obtain ⟨i, lower, rfl⟩ := List.mem_map.mp member
    by_cases inside : i < width
    · simp [BitVec.getLsbD_and, low i inside, List.mem_range.mp lower]
    · exact BitVec.getLsbD_of_ge _ _ (by omega)
  have high : (c &&& ~~~mask) >>> n = c >>> n := by
    apply BitVec.eq_of_getLsbD_eq
    intro i _
    rw [BitVec.getLsbD_ushiftRight, BitVec.getLsbD_ushiftRight, BitVec.getLsbD_and,
      BitVec.getLsbD_not]
    by_cases inside : n + i < width
    · rw [low (n + i) inside]
      simp [inside]
    · simp [BitVec.getLsbD_of_ge c (n + i) (by omega)]
  nth_rewrite 1 [whole]
  rw [crcShift_xor, quiet, high]
  rfl

/-- The bits of a small word enter as the register takes them up and shifts. -/
theorem crcBits_lowBits (polynomial c : BitVec width) {n : Nat} {word : BitVec width}
    (small : word >>> n = BitVec.ofNat width 0)
    : crcBits polynomial c (lowBits n word) = crcShift polynomial (c ^^^ word) n := by
  rw [crcShift_xor, small, BitVec.xor_zero]

/-- A word enters by one look at the register's low bits. -/
theorem crcBits_eq_crcShift (polynomial c : BitVec width) {n : Nat} {mask word : BitVec width}
    (low : IsLowMask n mask) (small : word >>> n = BitVec.ofNat width 0)
    : crcBits polynomial c (lowBits n word)
      = crcShift polynomial ((c ^^^ word) &&& mask) n ^^^ (c >>> n) := by
  rw [crcBits_lowBits polynomial c small, crcShift_eq polynomial low, BitVec.ushiftRight_xor_distrib,
    small, BitVec.xor_zero]

end RtcBase.Library

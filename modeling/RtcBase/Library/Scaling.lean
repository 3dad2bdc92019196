import Mathlib.Order.Interval.Finset.Nat

/-! Scaling of a draw: `x` of `N` values is mapped to `x * m / N`, one of `m` values. Each of these is
met by as many draws as any other, up to one.
-/

namespace RtcBase.Library

/-- The scaled draw is one of the values. -/
theorem scaled_lt {N m x : Nat} (drawn : x < N) (some : 0 < m) : x * m / N < m := by
  rw [Nat.div_lt_iff_lt_mul (by omega), Nat.mul_comm m N]
  exact Nat.mul_lt_mul_of_pos_right drawn some

/-- The draws of a value are an interval: its ends are where `x * m` reaches `v` and `v + 1` times `N`,
rounded up.
-/
theorem scaled_eq_iff {N m v : Nat} (draws : 0 < N) (some : 0 < m) (x : Nat)
    : x * m / N = v ↔ (v * N + (m - 1)) / m ≤ x ∧ x < ((v + 1) * N + (m - 1)) / m := by
  have reached (bound : Nat) : (bound + (m - 1)) / m ≤ x ↔ bound ≤ x * m := by
    rw [Nat.div_le_iff_le_mul some]
    omega
  rw [reached, ← not_le, reached, not_le, Nat.div_eq_iff draws, Nat.add_one_mul]
  omega

/-- Each value is met by the same number of draws, or by one more. -/
theorem card_scaled {N m v : Nat} (draws : 0 < N) (value : v < m)
    : ((Finset.range N).filter fun x => x * m / N = v).card = N / m
      ∨ ((Finset.range N).filter fun x => x * m / N = v).card = N / m + 1 := by
  have some : 0 < m := by omega
  have interval
      : (Finset.range N).filter (fun x => x * m / N = v)
        = Finset.Ico ((v * N + (m - 1)) / m) (((v + 1) * N + (m - 1)) / m) := by
    ext x
    rw [Finset.mem_filter, Finset.mem_range, Finset.mem_Ico, scaled_eq_iff draws some]
    constructor
    · exact And.right
    · intro inside
      refine ⟨?_, inside⟩
      -- the last interval ends at `N`, as `v + 1` is at most `m`
      have last : ((v + 1) * N + (m - 1)) / m ≤ N := by
        rw [Nat.div_le_iff_le_mul some]
        have := Nat.mul_le_mul_right N (Nat.succ_le_of_lt value)
        rw [Nat.succ_eq_add_one, Nat.mul_comm m N] at this
        omega
      omega
  have width
      : ((v + 1) * N + (m - 1)) / m
        = (v * N + (m - 1)) / m + N / m
          + if m ≤ (v * N + (m - 1)) % m + N % m then 1 else 0 := by
    rw [← Nat.add_div some, Nat.add_one_mul]
    congr 1
    omega
  rw [interval, Nat.card_Ico, width, Nat.add_assoc, Nat.add_sub_cancel_left]
  split
  · exact Or.inr rfl
  · exact Or.inl rfl

end RtcBase.Library

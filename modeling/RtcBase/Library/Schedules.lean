import RtcBase.Library.Runs

/-! Endless schedules of a step function, and the rule that a rank which fair steps use up brings a
run to where it ends.
-/

namespace RtcBase.Library

variable {σ ι : Type*}

/-- The state after the first inputs of an endless schedule. -/
def stateAt (step : σ → ι → σ) (start : σ) (schedule : Nat → ι) (n : Nat) : σ :=
  runFrom step start ((List.range n).map schedule)

theorem stateAt_succ (step : σ → ι → σ) (start : σ) (schedule : Nat → ι) (n : Nat)
    : stateAt step start schedule (n + 1) = step (stateAt step start schedule n) (schedule n) := by
  simp [stateAt, runFrom, List.range_succ]

/-- Where a rank never grows until the end, and every fair step lowers it, the end comes again and
again, by induction on the rank.
-/
theorem eventually_of_rank {ends spends : Nat → Prop} {rank : Nat → Nat} {settled : Nat}
    (onward
      : ∀ n ≥ settled,
          ¬ ends n
          → ends (n + 1) ∨ rank (n + 1) ≤ rank n ∧ (spends n → rank (n + 1) < rank n))
    (fair : ∀ n, ∃ m ≥ n, spends m) (n : Nat)
    : ∃ m ≥ n, ends m := by
  -- until a given time the run has ended or the rank has not grown
  have kept (n d : Nat) (late : settled ≤ n)
      : (∃ m ≥ n, ends m) ∨ rank (n + d) ≤ rank n := by
    induction d with
    | zero => exact .inr (Nat.le_refl _)
    | succ d ih =>
        rcases ih with ended | lower
        · exact .inl ended
        · by_cases ended : ends (n + d)
          · exact .inl ⟨n + d, by omega, ended⟩
          · rcases onward (n + d) (by omega) ended with ended | ⟨lowers, -⟩
            · exact .inl ⟨n + d + 1, by omega, ended⟩
            · exact .inr (Nat.le_trans lowers lower)
  have fromLate (r n : Nat) (late : settled ≤ n) (isRank : rank n = r) : ∃ m ≥ n, ends m := by
    induction r using Nat.strongRecOn generalizing n with
    | ind r ih =>
        obtain ⟨m, later, spending⟩ := fair n
        obtain ⟨d, rfl⟩ := Nat.exists_eq_add_of_le later
        rcases kept n d late with ended | lower
        · exact ended
        · by_cases ended : ends (n + d)
          · exact ⟨n + d, later, ended⟩
          · rcases onward (n + d) (by omega) ended with ended | ⟨-, lowers⟩
            · exact ⟨n + d + 1, by omega, ended⟩
            · have strict := lowers spending
              obtain ⟨end_, after, ended⟩ := ih _ (by omega) (n + d + 1) (by omega) rfl
              exact ⟨end_, by omega, ended⟩
  obtain ⟨m, later, ended⟩ := fromLate _ (max n settled) (Nat.le_max_right ..) rfl
  exact ⟨m, Nat.le_trans (Nat.le_max_left ..) later, ended⟩

end RtcBase.Library

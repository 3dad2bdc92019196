import RtcBase.Library.Gregorian

/-! The moment at a number of seconds from the start of an epoch: the inverse of counting the seconds
to a moment.
-/

namespace RtcBase.Library

/-- Where a number lies among intervals that are laid end to end: in which of them, from a first one
on and among the next `fuel`, and how far in it.
-/
def locate (lengths : Nat → Nat) : Nat → Nat → Nat → Nat × Nat
  | 0, first, n => (first, n)
  | fuel + 1, first, n =>
      if n < lengths first then (first, n) else locate lengths fuel (first + 1) (n - lengths first)

/-- The intervals before the place and the part of its own make the number, by induction on the
intervals that there are.
-/
theorem locate_spec {lengths : Nat → Nat} {fuel first n : Nat}
    (inside : n < ∑ k ∈ Finset.Ico first (first + fuel), lengths k)
    : first ≤ (locate lengths fuel first n).1
      ∧ (locate lengths fuel first n).1 < first + fuel
      ∧ (locate lengths fuel first n).2 < lengths (locate lengths fuel first n).1
      ∧ ∑ k ∈ Finset.Ico first (locate lengths fuel first n).1, lengths k
          + (locate lengths fuel first n).2
        = n := by
  induction fuel generalizing first n with
  | zero => simp at inside
  | succ fuel ih =>
      rw [locate]
      split_ifs with here
      · exact ⟨Nat.le_refl _, by omega, here, by simp⟩
      · rw [Finset.sum_eq_sum_Ico_succ_bot (by omega)] at inside
        have next : first + 1 + fuel = first + (fuel + 1) := by omega
        have further
            : n - lengths first < ∑ k ∈ Finset.Ico (first + 1) (first + 1 + fuel), lengths k := by
          rw [next]
          omega
        obtain ⟨least, most, part, total⟩ := ih further
        refine ⟨by omega, by omega, part, ?_⟩
        rw [Finset.sum_eq_sum_Ico_succ_bot (by omega), Nat.add_assoc, total]
        omega

/-- There is a year for every day. -/
theorem lt_daysBeforeYear (epoch days : Nat)
    : days < ∑ y ∈ Finset.Ico epoch (epoch + (days + 1)), yearLength y := by
  have each : ∀ y ∈ Finset.Ico epoch (epoch + (days + 1)), 1 ≤ yearLength y := by
    intro y _
    rw [yearLength_eq]
    split <;> omega
  calc days < (Finset.Ico epoch (epoch + (days + 1))).card := by rw [Nat.card_Ico]; omega
    _ = ∑ _y ∈ Finset.Ico epoch (epoch + (days + 1)), 1 := Finset.card_eq_sum_ones _
    _ ≤ ∑ y ∈ Finset.Ico epoch (epoch + (days + 1)), yearLength y := Finset.sum_le_sum each

namespace DateTime

/-- The year of a day that is counted from an epoch, and the day in it. -/
def yearAt (epoch days : Nat) : Nat × Nat := locate yearLength (days + 1) epoch days

/-- The month of a day of a year, and the day in it, both counted as in the calendar. -/
def monthAt (leap : Bool) (day : Nat) : Nat × Nat := locate (monthLength leap) 12 1 day

/-- The moment at a number of seconds from the start of an epoch. -/
def ofSeconds (epoch seconds : Nat) : DateTime :=
  let year := yearAt epoch (seconds / 86400)
  let month := monthAt (isLeapYear year.1) year.2
  have inYear : year.2 < ∑ m ∈ Finset.Ico 1 13, monthLength (isLeapYear year.1) m :=
    (locate_spec (lt_daysBeforeYear epoch (seconds / 86400))).2.2.1
  have inMonth := locate_spec inYear
  { year := year.1
    month := month.1
    day := month.2 + 1
    hour := seconds / 3600 % 24
    minute := seconds / 60 % 60
    second := seconds % 60
    month_pos := inMonth.1
    month_le := Nat.le_of_lt_succ inMonth.2.1
    day_pos := Nat.succ_pos _
    day_le := inMonth.2.2.1
    hour_lt := Nat.mod_lt _ (by decide)
    minute_lt := Nat.mod_lt _ (by decide)
    second_lt := Nat.mod_lt _ (by decide) }

theorem le_year_ofSeconds (epoch seconds : Nat) : epoch ≤ (ofSeconds epoch seconds).year :=
  (locate_spec (lt_daysBeforeYear epoch (seconds / 86400))).1

/-- The seconds to the moment at a number of seconds are that number. -/
theorem secondsSince_ofSeconds (epoch seconds : Nat)
    : (ofSeconds epoch seconds).secondsSince epoch = seconds := by
  obtain ⟨-, -, inYear, years⟩ := locate_spec (lt_daysBeforeYear epoch (seconds / 86400))
  obtain ⟨-, -, -, months⟩ := locate_spec
    (show (yearAt epoch (seconds / 86400)).2
      < ∑ m ∈ Finset.Ico 1 (1 + 12),
          monthLength (isLeapYear (yearAt epoch (seconds / 86400)).1) m from inYear)
  have days : (ofSeconds epoch seconds).daysSince epoch = seconds / 86400 := by
    rw [← years]
    simp only [daysSince, daysBeforeYear, daysBeforeMonth, ofSeconds, monthAt, Nat.add_sub_cancel,
      Nat.add_assoc, months]
    rfl
  rw [secondsSince, days]
  simp only [ofSeconds]
  omega

end DateTime

end RtcBase.Library

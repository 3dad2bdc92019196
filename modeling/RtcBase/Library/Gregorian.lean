import Mathlib.Algebra.BigOperators.Intervals
import Mathlib.Algebra.Order.BigOperators.Group.Finset

/-! The proleptic Gregorian calendar. A moment is a date and a time of day that exist, and the seconds
from the start of an epoch year to it are counted by the lengths of all that lies between.
-/

namespace RtcBase.Library

-----------------------------------------------------------------------------------------
-- Years and months
-----------------------------------------------------------------------------------------

def isLeapYear (year : Nat) : Bool := year % 4 = 0 ∧ (year % 100 ≠ 0 ∨ year % 400 = 0)

/-- The days of a month, counted from 1; there are no others than the twelve. -/
def monthLength (leap : Bool) : Nat → Nat
  | 2 => if leap then 29 else 28
  | 4 | 6 | 9 | 11 => 30
  | 1 | 3 | 5 | 7 | 8 | 10 | 12 => 31
  | _ => 0

/-- The days of the months of a year before one of them. -/
def daysBeforeMonth (leap : Bool) (month : Nat) : Nat := ∑ m ∈ Finset.Ico 1 month, monthLength leap m

/-- A year has its twelve months. -/
def yearLength (year : Nat) : Nat := daysBeforeMonth (isLeapYear year) 13

/-- The days from the start of an epoch to the start of a year. -/
def daysBeforeYear (epoch year : Nat) : Nat := ∑ y ∈ Finset.Ico epoch year, yearLength y

theorem yearLength_eq (year : Nat) : yearLength year = if isLeapYear year then 366 else 365 := by
  rw [yearLength]
  cases isLeapYear year <;> rfl

theorem yearLength_le (year : Nat) : yearLength year ≤ 366 := by
  rw [yearLength_eq]
  split <;> omega

/-- The leap years among those before a year, when years are counted from 1. -/
def leapYearsBefore (year : Nat) : Nat := (year - 1) / 4 - (year - 1) / 100 + (year - 1) / 400

/-- A year adds its leap day to the count of those before the next one. -/
theorem leapYearsBefore_succ {year : Nat} (positive : 0 < year)
    : leapYearsBefore (year + 1) = leapYearsBefore year + if isLeapYear year then 1 else 0 := by
  have fourths : year / 4 = (year - 1) / 4 + if year % 4 = 0 then 1 else 0 := by split <;> omega
  have hundredths : year / 100 = (year - 1) / 100 + if year % 100 = 0 then 1 else 0 := by
    split <;> omega
  have fourHundredths : year / 400 = (year - 1) / 400 + if year % 400 = 0 then 1 else 0 := by
    split <;> omega
  have fewer : (year - 1) / 100 ≤ (year - 1) / 4 := Nat.div_le_div_left (by decide) (by decide)
  have inFourth : year % 100 = 0 → year % 4 = 0 := by omega
  have inHundredth : year % 400 = 0 → year % 100 = 0 := by omega
  simp only [leapYearsBefore, Nat.add_sub_cancel, isLeapYear, decide_eq_true_eq]
  rw [fourths, hundredths, fourHundredths]
  clear fourths hundredths fourHundredths
  generalize (year - 1) / 4 = a at fewer ⊢
  generalize (year - 1) / 100 = b at fewer ⊢
  generalize (year - 1) / 400 = c
  by_cases isFourth : year % 4 = 0
  · by_cases isHundredth : year % 100 = 0
    · by_cases isFourHundredth : year % 400 = 0
      · simp [isFourth, isHundredth, isFourHundredth]
        omega
      · simp [isFourth, isHundredth, isFourHundredth]
    · simp [isFourth, isHundredth, mt inHundredth isHundredth]
      omega
  · simp [isFourth, mt inFourth isFourth, mt inHundredth (mt inFourth isFourth)]

/-- The days before a year in closed form, by induction on the years from the epoch on. -/
theorem daysBeforeYear_eq {epoch : Nat} (positive : 0 < epoch) {year : Nat} (since : epoch ≤ year)
    : daysBeforeYear epoch year + leapYearsBefore epoch
      = (year - epoch) * 365 + leapYearsBefore year := by
  induction year, since using Nat.le_induction with
  | base => simp [daysBeforeYear]
  | succ year since ih =>
      rw [daysBeforeYear] at ih
      rw [daysBeforeYear, Finset.sum_Ico_succ_top since, yearLength_eq,
        leapYearsBefore_succ (Nat.lt_of_lt_of_le positive since)]
      split <;> omega

-----------------------------------------------------------------------------------------
-- Moments
-----------------------------------------------------------------------------------------

/-- A date and a time of day that exist. Months and days are counted from 1. -/
structure DateTime where
  year : Nat
  month : Nat
  day : Nat
  hour : Nat
  minute : Nat
  second : Nat
  month_pos : 1 ≤ month
  month_le : month ≤ 12
  day_pos : 1 ≤ day
  day_le : day ≤ monthLength (isLeapYear year) month
  hour_lt : hour < 24
  minute_lt : minute < 60
  second_lt : second < 60

namespace DateTime

/-- The fields, the coarsest first. Moments are ordered as these are, lexicographically. -/
def fields (d : DateTime) : List Nat := [d.year, d.month, d.day, d.hour, d.minute, d.second]

def daysSince (epoch : Nat) (d : DateTime) : Nat :=
  daysBeforeYear epoch d.year + daysBeforeMonth (isLeapYear d.year) d.month + (d.day - 1)

def secondsSince (epoch : Nat) (d : DateTime) : Nat :=
  ((d.daysSince epoch * 24 + d.hour) * 60 + d.minute) * 60 + d.second

end DateTime

-----------------------------------------------------------------------------------------
-- The order of moments
-----------------------------------------------------------------------------------------

/-- A place in an earlier one of the intervals that are laid end to end is earlier. -/
theorem sum_Ico_add_lt {f : Nat → Nat} {start i j x y : Nat} (since : start ≤ i) (earlier : i < j)
    (inside : x < f i)
    : ∑ k ∈ Finset.Ico start i, f k + x < ∑ k ∈ Finset.Ico start j, f k + y := by
  calc ∑ k ∈ Finset.Ico start i, f k + x
      < ∑ k ∈ Finset.Ico start i, f k + f i := Nat.add_lt_add_left inside _
    _ = ∑ k ∈ Finset.Ico start (i + 1), f k := (Finset.sum_Ico_succ_top since f).symm
    _ ≤ ∑ k ∈ Finset.Ico start j, f k :=
        Finset.sum_le_sum_of_subset (Finset.Ico_subset_Ico_right earlier)
    _ ≤ ∑ k ∈ Finset.Ico start j, f k + y := Nat.le_add_right _ _

namespace DateTime

/-- A day lies inside its year. -/
theorem dayOfYear_lt (d : DateTime)
    : daysBeforeMonth (isLeapYear d.year) d.month + (d.day - 1) < yearLength d.year := by
  have positive := d.day_pos
  have most := d.day_le
  have placed := @sum_Ico_add_lt (monthLength (isLeapYear d.year)) 1 d.month 13 (d.day - 1) 0
    d.month_pos (Nat.lt_succ_of_le d.month_le) (by omega)
  rw [Nat.add_zero] at placed
  rw [yearLength, daysBeforeMonth, daysBeforeMonth]
  exact placed

/-- Later days have higher numbers. -/
theorem daysSince_lt {epoch : Nat} {d later : DateTime} (since : epoch ≤ d.year)
    (order : [d.year, d.month, d.day] < [later.year, later.month, later.day])
    : d.daysSince epoch < later.daysSince epoch := by
  have positive := d.day_pos
  have most := d.day_le
  simp only [List.cons_lt_cons_iff, List.lt_irrefl, and_false, or_false] at order
  rcases order with year | ⟨year, month | ⟨month, day⟩⟩
  · have placed := @sum_Ico_add_lt yearLength epoch d.year later.year _
      (daysBeforeMonth (isLeapYear later.year) later.month + (later.day - 1)) since year d.dayOfYear_lt
    simp only [daysSince, daysBeforeYear]
    omega
  · have placed := @sum_Ico_add_lt (monthLength (isLeapYear d.year)) 1 d.month later.month (d.day - 1)
      (later.day - 1) d.month_pos month (by omega)
    simp only [daysSince, daysBeforeMonth, ← year]
    omega
  · simp only [daysSince, ← year, ← month]
    omega

/-- Later moments are more seconds away. -/
theorem secondsSince_lt {epoch : Nat} {d later : DateTime} (since : epoch ≤ d.year)
    (order : d.fields < later.fields)
    : d.secondsSince epoch < later.secondsSince epoch := by
  have hours := d.hour_lt
  have minutes := d.minute_lt
  have seconds := d.second_lt
  have days
      : d.daysSince epoch < later.daysSince epoch
        ∨ d.daysSince epoch = later.daysSince epoch
          ∧ [d.hour, d.minute, d.second] < [later.hour, later.minute, later.second] := by
    simp only [fields, List.cons_lt_cons_iff, List.lt_irrefl, and_false, or_false] at order ⊢
    rcases order with year | ⟨year, month | ⟨month, day | ⟨day, time⟩⟩⟩
    · exact Or.inl (daysSince_lt since (List.cons_lt_cons_iff.mpr (Or.inl year)))
    · exact Or.inl (daysSince_lt since (by simp [List.cons_lt_cons_iff, year, month]))
    · exact Or.inl (daysSince_lt since (by simp [List.cons_lt_cons_iff, year, month, day]))
    · exact Or.inr ⟨by rw [daysSince, daysSince, year, month, day], time⟩
  simp only [List.cons_lt_cons_iff, List.lt_irrefl, and_false, or_false] at days
  simp only [secondsSince]
  omega

end DateTime

end RtcBase.Library

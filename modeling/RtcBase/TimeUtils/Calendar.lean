import RtcBase.Library.Gregorian

/-! `tm_to_seconds`, the seconds from 1970 on to a `std::tm`. The source counts leap days by divisions
and corrects the count for January and February; the calendar sums the lengths of years and months.
-/

namespace RtcBase.TimeUtils

open Library

-----------------------------------------------------------------------------------------
-- Signed arithmetic
-----------------------------------------------------------------------------------------

/-- The integer is one of a signed type. -/
def Fits (width : Nat) (n : Int) : Prop := -2 ^ (width - 1) ≤ n ∧ n < 2 ^ (width - 1)

instance (width : Nat) (n : Int) : Decidable (Fits width n) :=
  inferInstanceAs (Decidable (_ ∧ _))

/-- The result of an operation of a signed type; `none` when it overflows. -/
def signed (width : Nat) (n : Int) : Option Int := if Fits width n then some n else none

theorem signed_bind {α : Type} {width : Nat} {n : Int} (fits : Fits width n) (next : Int → Option α)
    : (signed width n).bind next = next n := by
  rw [signed, if_pos fits, Option.bind_some]

-----------------------------------------------------------------------------------------
-- The conversion
-----------------------------------------------------------------------------------------

/-- The fields of `std::tm` that are read. Years are counted from 1900 and months from 0. -/
structure Tm where
  tmYear : Int
  tmMon : Int
  tmMday : Int
  tmHour : Int
  tmMin : Int
  tmSec : Int
  deriving DecidableEq, Repr

def mdays : List Int := [31, 28, 31, 30, 31, 30, 31, 31, 30, 31, 30, 31]

def cumulMdays : List Int := [0, 31, 59, 90, 120, 151, 181, 212, 243, 273, 304, 334]

/-- `expiry_in_leap_year`. -/
def expiryInLeapYear (year : Int) : Bool :=
  year.tmod 4 = 0 ∧ (year.tmod 100 ≠ 0 ∨ year.tmod 400 = 0)

/-- The days since 1970 without the 365 of each year, of a `day` from 0 on in a month from 0 on. -/
def accumulatedDays (year month day : Int) : Option Int := do
  let day ← signed 32 (day + cumulMdays.getD month.toNat 0)
  -- leap days between 1970 and the expiration year, inclusive
  let fourths ← signed 32 (year.tdiv 4 - 1970 / 4)
  let hundredths ← signed 32 (year.tdiv 100 - 1970 / 100)
  let fourHundredths ← signed 32 (year.tdiv 400 - 1970 / 400)
  let leapDays ← signed 32 (fourths - hundredths)
  let leapDays ← signed 32 (leapDays + fourHundredths)
  let day ← signed 32 (day + leapDays)
  if expiryInLeapYear year ∧ month ≤ 2 - 1 then signed 32 (day - 1) else some day

/-- `tm_to_seconds`. The years are cast to `int64_t` before they are multiplied. -/
def tmToSeconds (tm : Tm) : Option Int := do
  let year ← signed 32 (tm.tmYear + 1900)
  let day ← signed 32 (tm.tmMday - 1)
  if year < 1970 then some (-1)
  else if tm.tmMon < 0 ∨ tm.tmMon > 11 then some (-1)
  else if day < 0
      ∨ day ≥ mdays.getD tm.tmMon.toNat 0
        + (if expiryInLeapYear year ∧ tm.tmMon = 2 - 1 then 1 else 0) then some (-1)
  else if tm.tmHour < 0 ∨ tm.tmHour > 23 then some (-1)
  else if tm.tmMin < 0 ∨ tm.tmMin > 59 then some (-1)
  else if tm.tmSec < 0 ∨ tm.tmSec > 59 then some (-1)
  else
    let day ← accumulatedDays year tm.tmMon day
    let years ← signed 32 (year - 1970)
    let days ← signed 64 (years * 365)
    let days ← signed 64 (days + day)
    let hours ← signed 64 (days * 24)
    let hours ← signed 64 (hours + tm.tmHour)
    let minutes ← signed 64 (hours * 60)
    let minutes ← signed 64 (minutes + tm.tmMin)
    let seconds ← signed 64 (minutes * 60)
    signed 64 (seconds + tm.tmSec)

-----------------------------------------------------------------------------------------
-- The moment of the fields
-----------------------------------------------------------------------------------------

/-- The fields are those of a moment. -/
structure Tm.Denotes (tm : Tm) (d : DateTime) : Prop where
  year : tm.tmYear + 1900 = d.year
  month : tm.tmMon + 1 = d.month
  day : tm.tmMday = d.day
  hour : tm.tmHour = d.hour
  minute : tm.tmMin = d.minute
  second : tm.tmSec = d.second

/-- The source's leap years are those of the calendar. -/
theorem expiryInLeapYear_eq (year : Nat) : expiryInLeapYear year = isLeapYear year := by
  simp only [expiryInLeapYear, isLeapYear, Int.tmod_eq_emod_of_nonneg (Int.natCast_nonneg year)]
  congr 1
  simp only [eq_iff_iff]
  omega

/-- The months of the table, with the day that a leap year adds to February. -/
theorem mdays_eq
    : ∀ leap : Bool, ∀ month < 12,
        mdays.getD month 0 + (if leap ∧ month = 1 then 1 else 0) = monthLength leap (month + 1) := by
  decide

/-- The last day that a month may have, by the month of the calendar. -/
theorem lastDay_eq {year month : Int} (yearPositive : 0 ≤ year) (monthPositive : 0 ≤ month)
    (monthMost : month ≤ 11)
    : mdays.getD month.toNat 0 + (if expiryInLeapYear year ∧ month = 2 - 1 then 1 else 0)
      = monthLength (isLeapYear year.toNat) (month.toNat + 1) := by
  have february : month = 2 - 1 ↔ month.toNat = 1 := by omega
  have leap : expiryInLeapYear year = isLeapYear year.toNat := by
    rw [← expiryInLeapYear_eq, Int.toNat_of_nonneg yearPositive]
  simp only [leap, february]
  exact mdays_eq (isLeapYear year.toNat) month.toNat (by omega)

/-- The sums of the table, with the day that a leap year adds after February. -/
theorem cumulMdays_eq
    : ∀ leap : Bool, ∀ month < 12,
        0 ≤ cumulMdays.getD month 0
        ∧ cumulMdays.getD month 0 + (if leap ∧ 1 < month then 1 else 0)
          = daysBeforeMonth leap (month + 1) := by
  decide

/-- The days of a year of `int` do not overflow. -/
theorem accumulatedDays_checked {year month day : Int} (since : 1970 ≤ year) (fits : year < 2 ^ 31)
    (dayPositive : 0 ≤ day) (tablePositive : 0 ≤ cumulMdays.getD month.toNat 0)
    (inYear : day + cumulMdays.getD month.toNat 0 < 366)
    : accumulatedDays year month day
      = some (day + cumulMdays.getD month.toNat 0 + (year / 4 - year / 100 + year / 400 - 477)
          - if expiryInLeapYear year ∧ month ≤ 1 then 1 else 0) := by
  have positive : 0 ≤ year := by omega
  simp only [accumulatedDays, Option.bind_eq_bind, Int.tdiv_eq_ediv_of_nonneg positive, Int.reduceSub]
  generalize cumulMdays.getD month.toNat 0 = before at *
  simp (disch := rw [Fits]; omega) only [signed_bind]
  by_cases early : expiryInLeapYear year ∧ month ≤ 1
  · rw [if_pos early, if_pos early, signed, if_pos (by constructor <;> omega)]
    congr 1
    omega
  · rw [if_neg early, if_neg early]
    congr 1
    omega

/-- The source's day is the number of the day without the 365 of each year. The divisions count the
leap day of the year at hand; it comes with the table's months or is taken back.
-/
theorem accumulatedDays_eq {d : DateTime} (since : 1970 ≤ d.year) (fits : d.year < 2 ^ 31)
    : accumulatedDays d.year (d.month - 1) (d.day - 1)
      = some (d.daysSince 1970 - (d.year - 1970) * 365 : Int) := by
  have monthPositive := d.month_pos
  have monthMost := d.month_le
  have dayPositive := d.day_pos
  have inYear := Nat.lt_of_lt_of_le d.dayOfYear_lt (yearLength_le d.year)
  have years := daysBeforeYear_eq (by decide) since
  have leapDays := leapYearsBefore_succ (by omega : 0 < d.year)
  have index : ((d.month : Int) - 1).toNat = d.month - 1 := by omega
  obtain ⟨tablePositive, table⟩ := cumulMdays_eq (isLeapYear d.year) (d.month - 1) (by omega)
  rw [show d.month - 1 + 1 = d.month by omega] at table
  rw [leapYearsBefore] at leapDays
  rw [show leapYearsBefore 1970 = 477 from rfl] at years
  have few : (d.day : Int) - 1 + cumulMdays.getD (d.month - 1) 0 < 366 := by
    split at table <;> omega
  rw [accumulatedDays_checked (by omega) (by exact_mod_cast fits) (by omega) (by rwa [index])
    (by rwa [index]), index, expiryInLeapYear_eq, DateTime.daysSince]
  congr 1
  cases leap : isLeapYear d.year with
  | false =>
      simp only [leap, Bool.false_eq_true, false_and, if_false] at table leapDays ⊢
      omega
  | true =>
      simp only [leap, true_and, if_true] at table leapDays ⊢
      split at table <;> split <;> omega

/-- The days until a year of `int` are far from the bounds of `int64_t`. -/
theorem daysSince_lt_of_fits {d : DateTime} (since : 1970 ≤ d.year) (fits : d.year < 2 ^ 31)
    : d.daysSince 1970 < 2 ^ 40 := by
  have inYear := Nat.lt_of_lt_of_le d.dayOfYear_lt (yearLength_le d.year)
  have years := daysBeforeYear_eq (by decide) since
  rw [show leapYearsBefore 1970 = 477 from rfl, leapYearsBefore] at years
  rw [DateTime.daysSince]
  omega

/-- The fields of a moment from 1970 on give its seconds. -/
theorem tmToSeconds_of_denotes {tm : Tm} (year : Fits 32 (tm.tmYear + 1900))
    (mday : Fits 32 (tm.tmMday - 1)) {d : DateTime} (denotes : tm.Denotes d) (since : 1970 ≤ d.year)
    : tmToSeconds tm = some (d.secondsSince 1970 : Int) := by
  have monthPositive := d.month_pos
  have monthMost := d.month_le
  have dayPositive := d.day_pos
  have dayMost := d.day_le
  have hours := d.hour_lt
  have minutes := d.minute_lt
  have seconds := d.second_lt
  have fits : d.year < 2 ^ 31 := by
    have yearMost := year.2
    rw [denotes.year] at yearMost
    omega
  have days := daysSince_lt_of_fits since fits
  have month : tm.tmMon = (d.month : Int) - 1 := by
    have := denotes.month
    omega
  have index : ((d.month : Int) - 1).toNat + 1 = d.month := by omega
  rw [tmToSeconds]
  simp only [Option.bind_eq_bind]
  rw [signed_bind year, signed_bind mday, denotes.year, denotes.day, denotes.hour, denotes.minute,
    denotes.second, month, lastDay_eq (by omega) (by omega) (by omega), index, Int.toNat_natCast,
    if_neg (by omega), if_neg (by omega), if_neg (by omega), if_neg (by omega), if_neg (by omega),
    if_neg (by omega), accumulatedDays_eq since fits, Option.bind_some]
  simp (disch := rw [Fits]; omega) only [signed_bind]
  rw [signed, if_pos (by constructor <;> omega), DateTime.secondsSince]
  congr 1
  omega

/-- What passes the checks is a moment. -/
theorem tmToSeconds_of_not_denotes {tm : Tm} (year : Fits 32 (tm.tmYear + 1900))
    (mday : Fits 32 (tm.tmMday - 1)) (none : ¬∃ d, tm.Denotes d ∧ 1970 ≤ d.year)
    : tmToSeconds tm = some (-1) := by
  rw [tmToSeconds]
  simp only [Option.bind_eq_bind]
  rw [signed_bind year, signed_bind mday]
  by_cases early : tm.tmYear + 1900 < 1970
  · exact if_pos early
  by_cases month : tm.tmMon < 0 ∨ tm.tmMon > 11
  · rw [if_neg early, if_pos month]
  have lastDay := @lastDay_eq (tm.tmYear + 1900) tm.tmMon (by omega) (by omega) (by omega)
  rw [if_neg early, if_neg month, lastDay, ite_eq_left_iff]
  intro day
  rw [ite_eq_left_iff]
  intro hour
  rw [ite_eq_left_iff]
  intro minute
  rw [ite_eq_left_iff]
  intro second
  let d : DateTime :=
    { year := (tm.tmYear + 1900).toNat
      month := tm.tmMon.toNat + 1
      day := tm.tmMday.toNat
      hour := tm.tmHour.toNat
      minute := tm.tmMin.toNat
      second := tm.tmSec.toNat
      month_pos := by omega
      month_le := by omega
      day_pos := by omega
      day_le := by omega
      hour_lt := by omega
      minute_lt := by omega
      second_lt := by omega }
  refine absurd ⟨d, ⟨?_, ?_, ?_, ?_, ?_, ?_⟩, ?_⟩ none
  all_goals
    simp only [d]
    omega

/-- The fields of `tm` are a moment from 1970 on whose seconds are counted, or -1 is returned; later
moments have more seconds. The only overflow that can happen is that of the year or of the day.
-/
theorem tmToSeconds_exact {tm : Tm} (year : Fits 32 (tm.tmYear + 1900))
    (mday : Fits 32 (tm.tmMday - 1))
    : (tmToSeconds tm = some (-1) ↔ ¬∃ d, tm.Denotes d ∧ 1970 ≤ d.year)
      ∧ ∀ d, tm.Denotes d → 1970 ≤ d.year →
          tmToSeconds tm = some (d.secondsSince 1970 : Int)
          ∧ ∀ (later : Tm) (other : DateTime), Fits 32 (later.tmYear + 1900) →
              Fits 32 (later.tmMday - 1) → later.Denotes other → d.fields < other.fields →
              ∃ more, tmToSeconds later = some more ∧ (d.secondsSince 1970 : Int) < more := by
  refine ⟨⟨?_, tmToSeconds_of_not_denotes year mday⟩, ?_⟩
  · rintro rejected ⟨d, denotes, since⟩
    have seconds :=
      Option.some.inj (rejected.symm.trans (tmToSeconds_of_denotes year mday denotes since))
    omega
  · intro d denotes since
    refine ⟨tmToSeconds_of_denotes year mday denotes since, ?_⟩
    intro later other laterYear laterMday laterDenotes order
    have notEarlier : d.year ≤ other.year := by
      simp only [DateTime.fields, List.cons_lt_cons_iff] at order
      omega
    refine ⟨_, tmToSeconds_of_denotes laterYear laterMday laterDenotes (by omega), ?_⟩
    exact_mod_cast DateTime.secondsSince_lt since order

/-- The last second of a leap day in a year that 400 divides. -/
theorem tmToSeconds_exact_leapDay
    : tmToSeconds ⟨100, 1, 29, 23, 59, 59⟩ = some 951868799 := by
  let d : DateTime := ⟨2000, 2, 29, 23, 59, 59, by decide, by decide, by decide, by decide, by decide,
    by decide, by decide⟩
  have seconds : (d.secondsSince 1970 : Int) = 951868799 := by decide +kernel
  have exact := (@tmToSeconds_exact ⟨100, 1, 29, 23, 59, 59⟩ (by decide) (by decide)).2 d
    ⟨by decide, by decide, by decide, by decide, by decide, by decide⟩ (by decide)
  rw [← seconds]
  exact exact.1

end RtcBase.TimeUtils

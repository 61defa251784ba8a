import PplMe.Core.Date
import Mathlib.Algebra.BigOperators.Group.List.Basic
import Mathlib.Algebra.GroupWithZero.Nat
import Mathlib.Order.Monotone.Basic

/-! Days counted through the years.
Going back some years goes back 365 days for each, and one more for each leap day passed.
-/

namespace PplMe.Core

def yearLength (year : Nat) : Nat := if isLeapYear year = true then 366 else 365

/-- The days of the first months of a year. -/
def daysOfMonths (year months : Nat) : Nat :=
  ((List.range months).map (fun earlier => endOfMonthDay year (earlier + 1))).sum

/-- The days of the years before a year. -/
def daysOfYears (year : Nat) : Nat := ((List.range year).map yearLength).sum

/-- The number of a date's day, counted from the beginning of year 0. -/
def Date.dayNumber (date : Date) : Nat :=
  daysOfYears date.year + daysOfMonths date.year (date.month - 1) + date.day

/-- How many leap days there were through a date. -/
def Date.leapDays (date : Date) : Nat :=
  (List.range date.year).countP isLeapYear
  + if isLeapYear date.year = true ∧ (2 < date.month ∨ date.month = 2 ∧ date.day = 29) then
      1
    else
      0

/-- The number of a day within a year of 365 days, where a leap day is the day before. -/
def commonDay (month day : Nat) : Nat :=
  daysOfMonths 1 (month - 1) + if month = 2 ∧ day = 29 then 28 else day

theorem daysOfMonths_succ (year months : Nat)
    : daysOfMonths year (months + 1)
      = daysOfMonths year months + endOfMonthDay year (months + 1) := by
  simp [daysOfMonths, List.range_succ]

theorem daysOfYears_succ (year : Nat)
    : daysOfYears (year + 1) = daysOfYears year + yearLength year := by
  simp [daysOfYears, List.range_succ]

/-- Years have 365 days and their leap days, by induction over the years. -/
theorem daysOfYears_eq (year : Nat)
    : daysOfYears year = 365 * year + (List.range year).countP isLeapYear := by
  induction year with
  | zero => rfl
  | succ year ih =>
      rw [daysOfYears_succ, ih, List.range_succ, List.countP_append, List.countP_singleton,
        yearLength]
      split <;> omega

/-- Months have the days of a common year and, from February on, the leap day; by induction
over the months.
-/
theorem daysOfMonths_eq (year months : Nat)
    : daysOfMonths year months
      = daysOfMonths 1 months + if isLeapYear year = true ∧ 2 ≤ months then 1 else 0 := by
  induction months with
  | zero => simp [daysOfMonths]
  | succ months ih =>
      rw [daysOfMonths_succ, daysOfMonths_succ, ih]
      by_cases january : months = 1
      · subst january
        have common : endOfMonthDay 1 (1 + 1) = 28 := rfl
        rw [endOfMonthDay_of_february rfl, common]
        cases isLeapYear year <;> simp
      · have same := endOfMonthDay_of_ne_february (show months + 1 ≠ 2 by omega) year 1
        have past : 2 ≤ months + 1 ↔ 2 ≤ months := by omega
        simp only [same, past]
        omega

/-- A date is so many common years, leap days, and days of a common year. -/
theorem Date.dayNumber_eq (date : Date)
    : date.dayNumber = 365 * date.year + date.leapDays + commonDay date.month date.day := by
  obtain ⟨_, ⟨_, _⟩, _, day⟩ := date.calendar
  rw [dayNumber, daysOfYears_eq, daysOfMonths_eq, leapDays, commonDay]
  by_cases leapDay : date.month = 2 ∧ date.day = 29
  · have leap : isLeapYear date.year = true := by
      by_contra common
      rw [endOfMonthDay_of_february leapDay.1, if_neg common] at day
      omega
    simp only [leapDay, leap, and_self, if_true, lt_irrefl, or_true,
      Nat.reduceSub, Nat.reduceLeDiff, and_false, if_false]
    omega
  · have past : 2 ≤ date.month - 1 ↔ 2 < date.month ∨ date.month = 2 ∧ date.day = 29 := by
      omega
    rw [if_neg leapDay]
    simp only [past]
    omega

theorem daysOfMonths_monotone (year : Nat) : Monotone (daysOfMonths year) := by
  apply monotone_nat_of_le_succ
  intro months
  rw [daysOfMonths_succ]
  exact Nat.le_add_right _ _

theorem daysOfYears_monotone : Monotone daysOfYears := by
  apply monotone_nat_of_le_succ
  intro year
  rw [daysOfYears_succ]
  exact Nat.le_add_right _ _

theorem daysOfMonths_twelve (year : Nat) : daysOfMonths year 12 = yearLength year := by
  have common : daysOfMonths 1 12 = 365 := rfl
  rw [daysOfMonths_eq, common, yearLength]
  cases isLeapYear year <;> rfl

/-- A date's day is within its month. -/
theorem Date.day_le_month (date : Date)
    : daysOfMonths date.year (date.month - 1) + date.day
      ≤ daysOfMonths date.year date.month := by
  obtain ⟨_, ⟨month, _⟩, _, day⟩ := date.calendar
  obtain ⟨before, eq⟩ := Nat.exists_eq_add_of_le' month
  rw [eq] at day ⊢
  rw [daysOfMonths_succ, Nat.add_sub_cancel]
  exact Nat.add_le_add_left day _

/-- Later dates have greater numbers: the year decides, then the month, then the day. -/
theorem Date.dayNumber_monotone : Monotone Date.dayNumber := by
  intro left right le
  obtain ⟨_, ⟨_, leftMonth⟩, _, leftDay⟩ := left.calendar
  obtain ⟨_, ⟨_, rightMonth⟩, _, rightDay⟩ := right.calendar
  have leftEnd := left.day_le_month
  rcases Nat.lt_or_ge left.year right.year with earlier | later
  · have through := daysOfMonths_monotone left.year leftMonth
    rw [daysOfMonths_twelve] at through
    have years := daysOfYears_monotone earlier
    rw [Nat.succ_eq_add_one, daysOfYears_succ] at years
    unfold dayNumber
    omega
  · have leftShort := (endOfMonthDay_bounds left.year left.month).2
    have rightShort := (endOfMonthDay_bounds right.year right.month).2
    rw [Date.le_iff_rank, Date.rank, Date.rank] at le
    have sameYear : left.year = right.year := by omega
    rcases Nat.lt_or_ge left.month right.month with before | after
    · have months := daysOfMonths_monotone right.year (Nat.le_sub_one_of_lt before)
      rw [sameYear] at leftEnd
      rw [dayNumber, dayNumber, sameYear]
      omega
    · have sameMonth : left.month = right.month := by omega
      rw [dayNumber, dayNumber, sameYear, sameMonth]
      omega

/-- A date and the date it goes back to are the same day of a common year. -/
theorem commonDay_dayInYear (date : Date) (year : Nat)
    : commonDay date.month (dayInYear date year) = commonDay date.month date.day := by
  by_cases february : date.month = 2
  · obtain ⟨_, _, _, day⟩ := date.calendar
    have ownEnd := endOfMonthDay_of_february february date.year
    have otherEnd := endOfMonthDay_of_february february year
    rw [ownEnd] at day
    rw [commonDay, commonDay, dayInYear, ownEnd, otherEnd]
    grind
  · rw [dayInYear_of_ne_february february]

/-- Going back takes 365 days for a year, and one more for each leap day passed. -/
theorem Date.minusYears_dayNumber {date reached : Date} {years : Int}
    (back : date.minusYears years = some reached)
    : (date.dayNumber : Int)
      = reached.dayNumber + 365 * years + (date.leapDays - reached.leapDays) := by
  obtain ⟨month, day⟩ := minusYears_parts back
  have year := minusYears_year back
  have same : commonDay reached.month reached.day = commonDay date.month date.day := by
    rw [month, day, commonDay_dayInYear]
  have own := date.dayNumber_eq
  have other := reached.dayNumber_eq
  omega

end PplMe.Core

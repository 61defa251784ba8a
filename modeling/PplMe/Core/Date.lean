import Mathlib.Order.Basic
import Mathlib.Order.Lattice
import Mathlib.Order.Monotone.Defs
import Mathlib.Data.Nat.Basic

/-! Calendar dates in the range of the date library, their order, and going back years. -/

namespace PplMe.Core

/-- Every fourth year, except centuries that are not divisible by 400. -/
def isLeapYear (year : Nat) : Bool :=
  year % 4 == 0 && (year % 100 != 0 || year % 400 == 0)

/-- The last day of a month. -/
def endOfMonthDay (year month : Nat) : Nat :=
  match month with
  | 2 => if isLeapYear year then 29 else 28
  | 4 | 6 | 9 | 11 => 30
  | _ => 31

/-- Years 1400 to 10000, months 1 to 12, and days up to the month's end. -/
def IsCalendarDate (year month day : Nat) : Prop :=
  (1400 ≤ year ∧ year ≤ 10000)
  ∧ (1 ≤ month ∧ month ≤ 12)
  ∧ (1 ≤ day ∧ day ≤ endOfMonthDay year month)

instance (year month day : Nat) : Decidable (IsCalendarDate year month day) :=
  inferInstanceAs (Decidable (_ ∧ _ ∧ _))

/-- A date is a year, month and day that occur in the calendar. -/
structure Date where
  year : Nat
  month : Nat
  day : Nat
  calendar : IsCalendarDate year month day
  deriving DecidableEq, Repr

/-- Construction from parts, refused where the library throws. -/
def Date.ofParts? (year month day : Nat) : Option Date :=
  if calendar : IsCalendarDate year month day then
    some ⟨year, month, day, calendar⟩
  else
    none

/-- No month is shorter than 28 days or longer than 31. -/
theorem endOfMonthDay_bounds (year month : Nat)
    : 28 ≤ endOfMonthDay year month ∧ endOfMonthDay year month ≤ 31 := by
  unfold endOfMonthDay
  split
  · split <;> omega
  all_goals omega

/-- A number in which dates are ordered like their days. -/
def Date.rank (date : Date) : Nat := (date.year * 13 + date.month) * 32 + date.day

/-- The rank determines year, month and day. -/
theorem Date.rank_injective : Function.Injective Date.rank := by
  intro left right same
  obtain ⟨_, ⟨_, _⟩, _, dayLeft⟩ := left.calendar
  obtain ⟨_, ⟨_, _⟩, _, dayRight⟩ := right.calendar
  have := (endOfMonthDay_bounds left.year left.month).2
  have := (endOfMonthDay_bounds right.year right.month).2
  unfold Date.rank at same
  obtain ⟨ly, lm, ld, _⟩ := left
  obtain ⟨ry, rm, rd, _⟩ := right
  simp only at *
  obtain ⟨rfl, rfl, rfl⟩ : ly = ry ∧ lm = rm ∧ ld = rd := by omega
  rfl

instance : LinearOrder Date := LinearOrder.lift' Date.rank Date.rank_injective

theorem Date.le_iff_rank {left right : Date} : left ≤ right ↔ left.rank ≤ right.rank := Iff.rfl

/-- The day kept when a date moves to another year: a month's last day moves to the target
month's last day, any other day is clipped to it.
-/
def dayInYear (date : Date) (year : Nat) : Nat :=
  if date.day = endOfMonthDay date.year date.month then
    endOfMonthDay year date.month
  else
    min date.day (endOfMonthDay year date.month)

/-- The last of a short February moves on by a day where it moves to a leap year. -/
def Date.Slips (date : Date) (year : Nat) : Prop :=
  date.month = 2 ∧ date.day = 28 ∧ isLeapYear date.year = false ∧ isLeapYear year = true

theorem endOfMonthDay_of_february {month : Nat} (february : month = 2) (year : Nat)
    : endOfMonthDay year month = if isLeapYear year = true then 29 else 28 :=
  february ▸ rfl

/-- Only February depends on the year. -/
theorem endOfMonthDay_of_ne_february {month : Nat} (other : month ≠ 2) (year target : Nat)
    : endOfMonthDay year month = endOfMonthDay target month := by
  unfold endOfMonthDay
  split
  · exact absurd rfl other
  all_goals rfl

/-- Outside February a day is kept. -/
theorem dayInYear_of_ne_february {date : Date} (other : date.month ≠ 2) (year : Nat)
    : dayInYear date year = date.day := by
  have day := date.calendar.2.2.2
  have same := endOfMonthDay_of_ne_february other year date.year
  unfold dayInYear
  split <;> omega

/-- Every other day is kept where the target month has it. -/
theorem dayInYear_of_le {date : Date} {year : Nat}
    (fits : date.day ≤ endOfMonthDay year date.month)
    : date.day ≤ dayInYear date year ∧ (dayInYear date year ≤ date.day ↔ ¬ date.Slips year) := by
  obtain ⟨_, ⟨_, _⟩, _, day⟩ := date.calendar
  by_cases february : date.month = 2
  · have ownEnd := endOfMonthDay_of_february february date.year
    have otherEnd := endOfMonthDay_of_february february year
    rw [ownEnd] at day
    rw [otherEnd] at fits
    rw [dayInYear, Date.Slips, ownEnd, otherEnd]
    cases own : isLeapYear date.year <;> cases other : isLeapYear year <;>
      simp only [own, other, Bool.false_eq_true, if_true, if_false, reduceCtorEq, and_false,
        and_true, not_false_eq_true, iff_true] at day fits ⊢ <;>
      split <;> omega
  · rw [dayInYear_of_ne_february february]
    exact ⟨le_rfl, iff_of_true le_rfl (fun slips => february slips.1)⟩

/-- Moving to an admitted year gives a calendar date. -/
theorem dayInYear_calendar (date : Date) {year : Nat} (low : 1400 ≤ year) (high : year ≤ 10000)
    : IsCalendarDate year date.month (dayInYear date year) := by
  obtain ⟨_, month, dayLow, _⟩ := date.calendar
  have bounds := endOfMonthDay_bounds year date.month
  refine ⟨⟨low, high⟩, month, ?_⟩
  unfold dayInYear
  split <;> omega

/-- `date - years(n)`, with no result where the library throws because the year leaves
1400 to 10000. A negative `n` goes forward.
-/
def Date.minusYears (date : Date) (years : Int) : Option Date :=
  if low : (1400 : Int) ≤ date.year - years then
    if high : date.year - years ≤ (10000 : Int) then
      some ⟨((date.year : Int) - years).toNat, date.month,
        dayInYear date ((date.year : Int) - years).toNat,
        dayInYear_calendar date (by omega) (by omega)⟩
    else
      none
  else
    none

/-- Going back succeeds exactly when the year stays in range. -/
theorem Date.minusYears_isSome_iff {date : Date} {years : Int}
    : (date.minusYears years).isSome
      ↔ (1400 : Int) ≤ date.year - years ∧ date.year - years ≤ (10000 : Int) := by
  unfold Date.minusYears
  split
  · split <;> simp [*]
  · simp [*]

/-- A date gone back to stands in the year the subtraction names. -/
theorem Date.minusYears_year {date earlier : Date} {years : Int}
    (h : date.minusYears years = some earlier)
    : (earlier.year : Int) = date.year - years := by
  unfold Date.minusYears at h
  split at h
  · split at h
    · cases h
      simp only
      omega
    · cases h
  · cases h

/-- A date gone back to keeps the month, and the day as far as the year allows. -/
theorem Date.minusYears_parts {date earlier : Date} {years : Int}
    (h : date.minusYears years = some earlier)
    : earlier.month = date.month ∧ earlier.day = dayInYear date earlier.year := by
  unfold Date.minusYears at h
  split at h
  · split at h
    · cases h
      exact ⟨rfl, rfl⟩
    · cases h
  · cases h

/-- Going back no years leaves a date alone. -/
theorem Date.minusYears_zero (date : Date) : date.minusYears 0 = some date := by
  obtain ⟨⟨low, high⟩, _, _, day⟩ := date.calendar
  have kept : dayInYear date date.year = date.day := by
    unfold dayInYear
    split <;> omega
  unfold minusYears
  rw [dif_pos (by omega), dif_pos (by omega)]
  simp [kept]

/-- In one month of the year, the years and then the days decide. -/
theorem Date.le_iff_of_month_eq {left right : Date} (same : left.month = right.month)
    : left ≤ right ↔ left.year < right.year ∨ left.year = right.year ∧ left.day ≤ right.day := by
  obtain ⟨_, ⟨_, _⟩, _, leftDay⟩ := left.calendar
  obtain ⟨_, ⟨_, _⟩, _, rightDay⟩ := right.calendar
  have := (endOfMonthDay_bounds left.year left.month).2
  have := (endOfMonthDay_bounds right.year right.month).2
  rw [Date.le_iff_rank, Date.rank, Date.rank]
  omega

/-- A date in an earlier year is an earlier date. -/
theorem Date.lt_of_year_lt {left right : Date} (h : left.year < right.year) : left < right := by
  obtain ⟨_, ⟨_, _⟩, _, _⟩ := left.calendar
  obtain ⟨_, ⟨_, _⟩, _, _⟩ := right.calendar
  have := (endOfMonthDay_bounds left.year left.month).2
  change left.rank < right.rank
  unfold Date.rank
  omega

theorem Date.year_le_of_le {left right : Date} (le : left ≤ right) : left.year ≤ right.year := by
  by_contra later
  exact not_lt_of_ge le (lt_of_year_lt (lt_of_not_ge later))

/-- Going back further gives no later date: the year decides, and with equal years the
whole date is the same.
-/
theorem Date.minusYears_antitone {date near far : Date} {fewer more : Int}
    (le : fewer ≤ more) (nearEq : date.minusYears fewer = some near)
    (farEq : date.minusYears more = some far)
    : far ≤ near := by
  by_cases same : fewer = more
  · subst same
    exact le_of_eq (Option.some.inj (farEq.symm.trans nearEq))
  · have nearYear := minusYears_year nearEq
    have farYear := minusYears_year farEq
    exact le_of_lt (lt_of_year_lt (by omega))

end PplMe.Core

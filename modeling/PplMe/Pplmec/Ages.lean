import PplMe.Core.DayNumbers
import PplMe.Engine.PplGrid
import Mathlib.Order.Bounds.Basic
import Mathlib.Order.Lattice.Nat

/-! The ages that a client shows.
The server goes back whole years through the calendar; the client divides the days of a life
by 365.24. The two differ near birthdays, by how many leap days the years really had.
-/

namespace PplMe.Pplmec

open PplMe.Core PplMe.Engine Floats

/-- The age of a person that was found: the days since birth, divided and truncated. -/
def ageInYears (localDay dateOfBirth : Date) : Int :=
  truncate (((localDay.dayNumber : Int) - dateOfBirth.dayNumber : Int) / (36524 / 100 : ℚ))

/-- The numbers of years by which today goes back to the date of birth or a later day. -/
def completedYears (today dateOfBirth : Date) : Set ℕ :=
  {years | ∃ reached, today.minusYears years = some reached ∧ dateOfBirth ≤ reached}

section Calendar

variable {today dateOfBirth : Date}

/-- No more years were completed than years have begun. -/
theorem completedYears_bounded (today dateOfBirth : Date)
    : BddAbove (completedYears today dateOfBirth) := by
  refine ⟨today.year - dateOfBirth.year, fun years completed => ?_⟩
  obtain ⟨reached, back, born⟩ := completed
  have year := Date.minusYears_year back
  have inOrder := Date.year_le_of_le born
  omega

/-- Who is born has completed a greatest number of years, zero at least. -/
theorem exists_completedYears (born : dateOfBirth ≤ today)
    : ∃ years, IsGreatest (completedYears today dateOfBirth) years := by
  have bounded := completedYears_bounded today dateOfBirth
  have nonempty : (completedYears today dateOfBirth).Nonempty :=
    ⟨0, today, today.minusYears_zero, born⟩
  exact ⟨_, Nat.sSup_mem nonempty bounded, fun _ completed => le_csSup bounded completed⟩

/-- A birthday completes its years. -/
theorem isGreatest_of_birthday {years : ℕ}
    (back : today.minusYears years = some dateOfBirth)
    : IsGreatest (completedYears today dateOfBirth) years := by
  refine ⟨⟨dateOfBirth, back, le_rfl⟩, fun more completed => ?_⟩
  obtain ⟨reached, further, born⟩ := completed
  have year := Date.minusYears_year back
  have reachedYear := Date.minusYears_year further
  have inOrder := Date.year_le_of_le born
  omega

end Calendar

/-- A quotient truncates to a number when the dividend is between that multiple of the divisor
and the next.
-/
theorem ageInYears_eq_iff {today dateOfBirth : Date} {years : ℕ} (born : dateOfBirth ≤ today)
    : ageInYears today dateOfBirth = years
      ↔ 36524 * (years : Int) ≤ 100 * ((today.dayNumber : Int) - dateOfBirth.dayNumber)
        ∧ 100 * ((today.dayNumber : Int) - dateOfBirth.dayNumber) < 36524 * (years + 1) := by
  have days := Date.dayNumber_monotone born
  obtain ⟨lived, eq⟩ := Nat.exists_eq_add_of_le days
  have difference : (today.dayNumber : Int) - dateOfBirth.dayNumber = lived := by omega
  have nonneg : (0 : ℚ) ≤ ((lived : Int) : ℚ) / (36524 / 100) := by positivity
  rw [ageInYears, difference, truncate_of_nonneg nonneg, Int.floor_eq_iff,
    le_div_iff₀ (by norm_num), div_lt_iff₀ (by norm_num)]
  refine and_congr ?_ ?_
  · rw [← @Int.cast_le ℚ]
    push_cast
    constructor <;> intro within <;> linarith
  · rw [← @Int.cast_lt ℚ]
    push_cast
    constructor <;> intro within <;> linarith

/-- The client shows the completed years when the leap days of these years and the days after
the birthday make up for 0.24 days a year, and do not yet complete another year of 365.24 days.
-/
theorem ageInYears_agrees_iff {today dateOfBirth : Date} (born : dateOfBirth ≤ today)
    : ∃ (years : ℕ) (birthday : Date),
        IsGreatest (completedYears today dateOfBirth) years
        ∧ today.minusYears years = some birthday
        ∧ (∀ (settings : GridSettings) parameters window person,
          settings.today = today
          → settings.maxAgeDifference = 0
          → settings.ageWindow parameters = .ok window
          → InWindow window person
          → person.dateOfBirth = dateOfBirth
          → parameters.ageOfUser = years)
        ∧ (ageInYears today dateOfBirth = years
          ↔ 24 * (years : Int)
              ≤ 100 * ((today.leapDays - birthday.leapDays : Int)
                + (birthday.dayNumber - dateOfBirth.dayNumber))
            ∧ 100 * ((today.leapDays - birthday.leapDays : Int)
                + (birthday.dayNumber - dateOfBirth.dayNumber))
              < 36524 + 24 * years) := by
  obtain ⟨years, greatest⟩ := exists_completedYears born
  obtain ⟨birthday, back, _⟩ := greatest.1
  refine ⟨years, birthday, greatest, back, ?_, ?_⟩
  · rintro settings parameters window person rfl same computed ⟨earliest, latest⟩ rfl
    obtain ⟨first, last⟩ := GridSettings.ageWindow_eq_ok_iff.mp computed
    rw [same, add_zero] at first
    rw [same, sub_zero] at last
    have one : window.1 = window.2 := Option.some.inj (first.symm.trans last)
    have exactly : window.1 = person.dateOfBirth := le_antisymm earliest (one ▸ latest)
    rw [exactly] at first
    have year := Date.minusYears_year first
    have inOrder := Date.year_le_of_le born
    obtain ⟨age, ageEq⟩ := Int.eq_ofNat_of_zero_le (show 0 ≤ parameters.ageOfUser by omega)
    rw [ageEq] at first ⊢
    rw [(isGreatest_of_birthday first).unique greatest]
  · rw [ageInYears_eq_iff born, Date.minusYears_dayNumber back]
    constructor <;> intro within <;> constructor <;> omega

/-- Six leap days lie between the birth and the twenty-fourth birthday, and the client shows 24. -/
theorem ageInYears_agrees_iff_twentyFour
    : ageInYears ⟨2014, 1, 15, by decide⟩ ⟨1990, 1, 15, by decide⟩ = 24 := by
  obtain ⟨years, birthday, greatest, back, matched, shown⟩ :=
    @ageInYears_agrees_iff ⟨2014, 1, 15, by decide⟩ ⟨1990, 1, 15, by decide⟩ (by decide)
  have same : (24 : ℤ) = years :=
    matched sameAge ⟨⟨.finite 0, .finite 0⟩, 24⟩
      (⟨1990, 1, 15, by decide⟩, ⟨1990, 1, 15, by decide⟩)
      { islander with dateOfBirth := ⟨1990, 1, 15, by decide⟩ } rfl rfl
      (GridSettings.ageWindow_of_representable ⟨rfl, rfl⟩) ⟨le_rfl, le_rfl⟩ rfl
  obtain rfl : years = 24 := by omega
  obtain rfl : birthday = ⟨1990, 1, 15, by decide⟩ := Option.some.inj (back.symm.trans rfl)
  exact shown.mpr (by decide +kernel)

/-- Born a year before the day of the settings. -/
def yearling : Person := { islander with dateOfBirth := ⟨2013, 1, 15, by decide⟩ }

/-- On a first birthday without a leap day the server matches the age of one, and the client
shows zero.
-/
theorem yearling_shown_zero
    : IsGreatest (completedYears sameAge.today yearling.dateOfBirth) 1
      ∧ sameAge.ageWindow ⟨⟨.finite 0, .finite 0⟩, 1⟩
        = .ok (yearling.dateOfBirth, yearling.dateOfBirth)
      ∧ InWindow (yearling.dateOfBirth, yearling.dateOfBirth) yearling
      ∧ ageInYears sameAge.today yearling.dateOfBirth = 0 :=
  ⟨isGreatest_of_birthday rfl, GridSettings.ageWindow_of_representable ⟨rfl, rfl⟩,
    ⟨le_rfl, le_rfl⟩, by decide +kernel⟩

end PplMe.Pplmec

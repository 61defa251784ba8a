import PplMe.Engine.PplGrid

/-! Who is found on a birthday.
The ends of the age window are as many years before today as the ages asked for, so that a
birthday today is to be within it. The library moves the last day of a month to the last day
of the target month, which is one day too late on one side of the window.
-/

namespace PplMe.Engine

open PplMe.Core

namespace GridSettings

variable {settings : GridSettings} {parameters : PplMatchingParameters}
  {window : Date × Date} {person : Person}

/-- Somebody with a birthday today and an age within reach is in the window, unless today is
the last of a short February, the birth was in a leap year, and the age is the greatest asked
for.
-/
theorem birthday_inWindow_iff (computed : settings.ageWindow parameters = .ok window)
    (month : person.dateOfBirth.month = settings.today.month)
    (day : person.dateOfBirth.day = settings.today.day)
    (near
      : |(settings.today.year : Int) - person.dateOfBirth.year - parameters.ageOfUser|
        ≤ settings.maxAgeDifference)
    : InWindow window person
      ↔ ¬ (settings.today.Slips person.dateOfBirth.year
          ∧ (settings.today.year : Int) - person.dateOfBirth.year
            = parameters.ageOfUser + settings.maxAgeDifference) := by
  obtain ⟨earliest, latest⟩ := ageWindow_eq_ok_iff.mp computed
  obtain ⟨earliestMonth, earliestDay⟩ := Date.minusYears_parts earliest
  obtain ⟨latestMonth, latestDay⟩ := Date.minusYears_parts latest
  have earliestYear := Date.minusYears_year earliest
  have latestYear := Date.minusYears_year latest
  have fits : settings.today.day
      ≤ endOfMonthDay person.dateOfBirth.year settings.today.month := by
    rw [← day, ← month]
    exact person.dateOfBirth.calendar.2.2.2
  obtain ⟨late, early⟩ := dayInYear_of_le fits
  rw [abs_le] at near
  rw [InWindow, Date.le_iff_of_month_eq (earliestMonth.trans month.symm),
    Date.le_iff_of_month_eq (month.trans latestMonth.symm), earliestDay, latestDay, day]
  have upper : person.dateOfBirth.year < window.2.year
      ∨ person.dateOfBirth.year = window.2.year
        ∧ settings.today.day ≤ dayInYear settings.today window.2.year := by
    by_cases least : person.dateOfBirth.year = window.2.year
    · exact Or.inr ⟨least, least ▸ late⟩
    · exact Or.inl (by omega)
  by_cases greatest : window.1.year = person.dateOfBirth.year
  · have oldest : (settings.today.year : Int) - person.dateOfBirth.year
        = parameters.ageOfUser + settings.maxAgeDifference := by omega
    rw [greatest, and_iff_left upper, and_iff_left oldest, ← early]
    exact ⟨fun inside => (inside.resolve_left (lt_irrefl _)).2, fun le => Or.inr ⟨rfl, le⟩⟩
  · refine iff_of_true ⟨Or.inl (by omega), upper⟩ (fun slipped => greatest ?_)
    have oldest := slipped.2
    omega

end GridSettings

/-- Born on the fifteenth of January, like today. -/
def januarian : Person := { islander with dateOfBirth := ⟨1990, 1, 15, by decide⟩ }

/-- Twenty-four today, and found by somebody who is nineteen. -/
theorem birthday_inWindow_iff_januarian
    : InWindow (⟨1990, 1, 15, by decide⟩, ⟨2000, 1, 15, by decide⟩) januarian
      ↔ ¬ (wholeDegrees.today.Slips januarian.dateOfBirth.year
          ∧ (wholeDegrees.today.year : Int) - januarian.dateOfBirth.year
            = 19 + wholeDegrees.maxAgeDifference) :=
  @GridSettings.birthday_inWindow_iff wholeDegrees ⟨⟨.finite 0, .finite 0⟩, 19⟩ _ januarian
    (GridSettings.ageWindow_of_representable ⟨rfl, rfl⟩) rfl rfl (by decide)

/-- The last of February 2015, and no difference in age. -/
def lastOfFebruary : GridSettings := { sameAge with today := ⟨2015, 2, 28, by decide⟩ }

/-- Twenty-three that day, since a leap year. -/
def februarian : Person := { islander with dateOfBirth := ⟨1992, 2, 28, by decide⟩ }

/-- The window of the age of twenty-three begins a day after the twenty-third birthday. -/
theorem birthday_missed
    : lastOfFebruary.ageWindow ⟨⟨.finite 0, .finite 0⟩, 23⟩
        = .ok (⟨1992, 2, 29, by decide⟩, ⟨1992, 2, 29, by decide⟩)
      ∧ februarian.dateOfBirth.month = lastOfFebruary.today.month
      ∧ februarian.dateOfBirth.day = lastOfFebruary.today.day
      ∧ (lastOfFebruary.today.year : Int) - februarian.dateOfBirth.year = 23
      ∧ ¬ InWindow (⟨1992, 2, 29, by decide⟩, ⟨1992, 2, 29, by decide⟩) februarian :=
  ⟨GridSettings.ageWindow_of_representable ⟨rfl, rfl⟩, rfl, rfl, rfl, by decide⟩

end PplMe.Engine

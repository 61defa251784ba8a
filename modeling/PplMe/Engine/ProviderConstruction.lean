import PplMe.Engine.SlurpedGrid

/-! The matching provider before its first find: what its constructor checks and what it does
not, and who can be added.
-/

namespace PplMe.Engine

open PplMe.Core Failures Floats

/-- Why a provider or a server cannot be constructed. -/
inductive ConstructionFault where
  /-- A conversion to an unsigned type throws. -/
  | negativeOverflow
  | positiveOverflow
  | tooGranular
  | maxAgeDifferenceCheck
  | maxPplCheck
  | perFindConcurrencyCheck
  deriving DecidableEq, Repr

/-- What the constructor sets, the grid and the workers apart. -/
structure ProviderMembers where
  resolution : Int32
  maxAgeDifference : Int32
  maxPpl : UInt32
  perFindConcurrency : UInt32
  deriving DecidableEq, Repr

/-- `boost::numeric_cast<unsigned int>`. -/
def toUnsignedInt (value : Int32) : Except ConstructionFault UInt32 :=
  if value < 0 then .error .negativeOverflow else .ok value.toUInt32

/-- The members in the order of their declaration, and then the checks. There is one about the
resolution's upper bound, and none about its lower one.
-/
def constructProvider (hardwareConcurrency : UInt32)
    (resolution maxAgeDifference maxPpl : Int32) (perFindConcurrency : Option Int32)
    : Except ConstructionFault ProviderMembers := do
  let maxPpl_ ← toUnsignedInt maxPpl
  let members : ProviderMembers :=
    { resolution
      maxAgeDifference
      maxPpl := maxPpl_
      perFindConcurrency := (perFindConcurrency.map Int32.toUInt32).getD hardwareConcurrency }
  if 100 < resolution then
    .error .tooGranular
  else if maxAgeDifference < 0 then
    .error .maxAgeDifferenceCheck
  else if maxPpl_ = 0 then
    .error .maxPplCheck
  else if perFindConcurrency.any (fun perFindConcurrency => perFindConcurrency ≤ 0) then
    .error .perFindConcurrencyCheck
  else
    .ok members

/-- The members are those of a provider that can be used: there are cells, at least one of them
is searched at a time, and all checks have passed.
-/
structure ProviderMembers.Usable (members : ProviderMembers) : Prop where
  resolutionPositive : 1 ≤ members.resolution.toInt
  resolutionAdmitted : members.resolution.toInt ≤ 100
  maxAgeDifferenceNonneg : 0 ≤ members.maxAgeDifference.toInt
  maxPplPositive : 1 ≤ members.maxPpl.toNat
  perFindConcurrencyPositive : 1 ≤ members.perFindConcurrency.toNat

/-- The settings of a usable provider on a host with its calendar and its rounding. -/
def ProviderMembers.settings (members : ProviderMembers) (usable : members.Usable) (today : Date)
    (rounding : Rounding)
    : Settings where
  resolution := members.resolution.toInt.toNat
  maxAgeDifference := members.maxAgeDifference.toInt
  today
  rounding
  maxPpl := members.maxPpl.toNat
  perFindConcurrency := members.perFindConcurrency.toNat
  resolutionPositive := by
    have positive := usable.resolutionPositive
    omega
  resolutionAdmitted := by
    have admitted := usable.resolutionAdmitted
    omega
  maxAgeDifferenceNonneg := usable.maxAgeDifferenceNonneg
  maxPplPositive := usable.maxPplPositive
  perFindConcurrencyPositive := usable.perFindConcurrencyPositive

section Construction

variable {hardwareConcurrency : UInt32} {resolution maxAgeDifference maxPpl : Int32}
  {perFindConcurrency : Option Int32} {members : ProviderMembers}

/-- A number that is not negative stays the same as an unsigned one. -/
theorem toNat_toUInt32_of_nonneg {value : Int32} (nonneg : 0 ≤ value)
    : (value.toUInt32.toNat : Int) = value.toInt := by
  have low : (0 : Int) ≤ value.toInt := Int32.le_iff_toInt_le.mp nonneg
  rw [Int32.toNat_toUInt32_of_le nonneg]
  exact Int.toNat_of_nonneg low

/-- Only a room for nobody converts to nothing. -/
theorem toUInt32_ne_zero {value : Int32} (positive : 0 < value) : value.toUInt32 ≠ 0 := by
  intro zero
  have above : (0 : Int) < value.toInt := Int32.lt_iff_toInt_lt.mp positive
  have same := toNat_toUInt32_of_nonneg (Int32.le_iff_toInt_le.mpr above.le)
  rw [zero] at same
  exact absurd same above.ne

/-- Which arguments a provider is constructed from. -/
theorem constructProvider_eq_ok_iff
    : constructProvider hardwareConcurrency resolution maxAgeDifference maxPpl
          perFindConcurrency
        = .ok members
      ↔ (0 < maxPpl ∧ resolution ≤ 100 ∧ 0 ≤ maxAgeDifference
          ∧ ∀ given ∈ perFindConcurrency, 0 < given)
        ∧ members
          = ⟨resolution, maxAgeDifference, maxPpl.toUInt32,
            (perFindConcurrency.map Int32.toUInt32).getD hardwareConcurrency⟩ := by
  by_cases negative : maxPpl < 0
  · have low : ¬ 0 < maxPpl := fun positive => by
      rw [Int32.lt_iff_toInt_lt] at negative positive
      omega
    simp [constructProvider, toUnsignedInt, negative, low, bind, Except.bind]
  · by_cases positive : 0 < maxPpl
    · have room := toUInt32_ne_zero positive
      by_cases granular : 100 < resolution
      · have high : ¬ resolution ≤ 100 := Int32.not_le.mpr granular
        simp [constructProvider, toUnsignedInt, negative, granular, high, bind, Except.bind]
      · have fine : resolution ≤ 100 := Int32.not_lt.mp granular
        by_cases apart : maxAgeDifference < 0
        · have low : ¬ 0 ≤ maxAgeDifference := Int32.not_le.mpr apart
          simp [constructProvider, toUnsignedInt, negative, granular, apart, low, bind, Except.bind]
        · have nonneg : 0 ≤ maxAgeDifference := Int32.not_lt.mp apart
          cases perFindConcurrency with
          | none =>
              simp [constructProvider, toUnsignedInt, negative, granular, apart, positive, fine,
                nonneg, room, bind, Except.bind, eq_comm]
          | some given =>
              by_cases many : 0 < given
              · have some : ¬ given ≤ 0 := Int32.not_le.mpr many
                simp [constructProvider, toUnsignedInt, negative, granular, apart, positive, fine,
                  nonneg, room, many, some, bind, Except.bind, eq_comm]
              · have few : given ≤ 0 := Int32.not_lt.mp many
                simp [constructProvider, toUnsignedInt, negative, granular, apart, room, many, few,
                  bind, Except.bind]
    · have zero : maxPpl = 0 :=
        Int32.le_antisymm (Int32.not_lt.mp positive) (Int32.not_lt.mp negative)
      subst zero
      have nobody : Int32.toUInt32 0 = 0 := rfl
      by_cases granular : 100 < resolution <;> by_cases apart : maxAgeDifference < 0 <;>
        simp [constructProvider, toUnsignedInt, nobody, granular, apart, bind, Except.bind]

/-- What the constructor accepts can be used if there are cells, and if there is a processor
where nobody says how many cells to search at a time.
-/
theorem ProviderMembers.Usable.of_constructed
    (constructed
      : constructProvider hardwareConcurrency resolution maxAgeDifference maxPpl
            perFindConcurrency
          = .ok members)
    (cells : 0 < resolution)
    (concurrent : perFindConcurrency = none → hardwareConcurrency ≠ 0)
    : members.Usable := by
  obtain ⟨⟨room, admitted, apart, given⟩, rfl⟩ := constructProvider_eq_ok_iff.mp constructed
  have positive {value : UInt32} (nonzero : value ≠ 0) : 1 ≤ value.toNat :=
    Nat.one_le_iff_ne_zero.mpr fun zero => nonzero (UInt32.toNat_inj.mp zero)
  refine ⟨Int32.lt_iff_toInt_lt.mp cells, Int32.le_iff_toInt_le.mp admitted,
    Int32.le_iff_toInt_le.mp apart, positive (toUInt32_ne_zero room), ?_⟩
  cases perFindConcurrency with
  | none => exact positive (concurrent rfl)
  | some value => exact positive (toUInt32_ne_zero (given value rfl))

end Construction

-----------------------------------------------------------------------------------------
-- Who can be added
-----------------------------------------------------------------------------------------

section Additions

variable {settings : Settings} {people : List Person} {grid : PplGrid}

/-- An index that passes its check is a whole number of degrees of the map. -/
theorem GridSettings.degrees_of_coordinateIndex {settings : GridSettings} {shift index : Nat}
    {failed : Fault} {coordinate : FloatValue}
    (checked : settings.coordinateIndex shift failed coordinate = .ok index)
    : ∃ degrees ≤ 2 * shift, index = degrees * settings.resolution := by
  unfold GridSettings.coordinateIndex at checked
  split at checked
  · cases checked
  · rename_i degrees _
    split at checked
    · rename_i inRange
      obtain ⟨degrees, rfl⟩ := Int.eq_ofNat_of_zero_le inRange.1
      cases checked
      exact ⟨degrees, by omega, by norm_cast⟩
    · cases checked

/-- A position that has a cell has one on the grid. -/
theorem Settings.onGrid_of_toCellLocator {position : GeoPosition} {cell : CellLocator}
    (located : settings.toCellLocator position = .ok cell)
    : settings.OnGrid cell := by
  obtain ⟨latitudeIndex, row, located⟩ := of_bind_eq_ok located
  obtain ⟨longitudeIndex, column, located⟩ := of_bind_eq_ok located
  cases located
  obtain ⟨latitude, rowBound, rfl⟩ := GridSettings.degrees_of_coordinateIndex row
  obtain ⟨longitude, columnBound, rfl⟩ := GridSettings.degrees_of_coordinateIndex column
  exact settings.onGrid_of_degrees rowBound columnBound

/-- Exactly those can be added whose home is taken to lie in a cell. -/
theorem Settings.Populated.addPerson_isOk_iff {person : Person}
    (populated : settings.Populated people grid)
    : (∃ next, settings.addPerson grid person = .ok next)
      ↔ (settings.homeIndex person).isSome = true := by
  constructor
  · rintro ⟨next, added⟩
    exact (populated.of_addPerson added).2
  · intro home
    cases located : settings.toCellLocator person.locationOfHome with
    | error fault =>
        rw [Settings.homeIndex, located] at home
        cases home
    | ok cell =>
        have inside := settings.getPplIndex_lt (Settings.onGrid_of_toCellLocator located)
        rw [← populated.size] at inside
        have index : settings.homeIndex person = some (settings.getPplIndex cell) := by
          rw [Settings.homeIndex, located]
          rfl
        obtain ⟨next, added, _⟩ := populated.addPersonAt index inside
        refine ⟨next, ?_⟩
        rw [Settings.addPerson, located]
        exact added

/-- So can many, one after the other, by induction over them. -/
theorem Settings.Populated.foldlM_isOk_iff {more : List Person}
    (populated : settings.Populated people grid)
    : (∃ next, more.foldlM settings.addPerson grid = .ok next)
      ↔ ∀ person ∈ more, (settings.homeIndex person).isSome = true := by
  constructor
  · rintro ⟨next, run⟩
    exact (populated.of_foldlM run).2
  · intro homes
    induction more generalizing people grid with
    | nil => exact ⟨grid, rfl⟩
    | cons person rest ih =>
        obtain ⟨home, homes⟩ := List.forall_mem_cons.mp homes
        obtain ⟨middle, added⟩ := populated.addPerson_isOk_iff.mpr home
        obtain ⟨next, run⟩ := ih (populated.of_addPerson added).1 homes
        refine ⟨next, ?_⟩
        rw [List.foldlM_cons, added, ok_bind, run]

end Additions

end PplMe.Engine

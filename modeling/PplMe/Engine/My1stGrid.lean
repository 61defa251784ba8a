import PplMe.Engine.PplGrid

/-! The first provider: a vector with one cell for each whole degree of the map, without the
border cells, and finds that look at the user's own cell alone.
-/

namespace PplMe.Engine

open PplMe.Core Failures Floats

/-- What the first provider is constructed with; none of it is checked. `rounding` is the
host's, not an argument.
-/
structure My1stSettings where
  maxAgeDifference : Int
  today : Date
  rounding : Rounding

/-- A whole degree of latitude and of longitude, from the south-western corner of the map. -/
structure DegreeCell where
  latitudeIndex : Int
  longitudeIndex : Int
  deriving DecidableEq, Repr

/-- Longitude times latitude. -/
def pplGridSize : Nat := 180 * 2 * 90 * 2

/-- An int where a `size_t` is expected. -/
def toSize (index : Int) : Nat := (BitVec.ofInt 64 index).toNat

theorem toSize_of_nonneg {index : Int} (nonneg : 0 ≤ index) (small : index < 2 ^ 31)
    : toSize index = index.toNat := by
  obtain ⟨index, rfl⟩ := Int.eq_ofNat_of_zero_le nonneg
  rw [toSize, BitVec.ofInt_natCast, BitVec.toNat_ofNat, Nat.mod_eq_of_lt (by omega),
    Int.toNat_natCast]

namespace My1stSettings

variable (settings : My1stSettings)

/-- Shift a coordinate and truncate it. -/
def degreeIndex (shift : Nat) (coordinate : FloatValue) : Except Fault Int :=
  match (coordinate.addInt settings.rounding shift).toInt? with
  | none => .error .undefinedConversion
  | some index => .ok index

def degreeCell (position : GeoPosition) : Except Fault DegreeCell := do
  let latitudeIndex ← settings.degreeIndex 90 position.latitude
  let longitudeIndex ← settings.degreeIndex 180 position.longitude
  pure ⟨latitudeIndex, longitudeIndex⟩

/-- Where `GetGridPos` looks in the vector. -/
def getGridPos (position : GeoPosition) : Except Fault Nat := do
  let cell ← settings.degreeCell position
  let row ← checkedInt (cell.latitudeIndex * 360)
  let gridIndex ← checkedInt (row + cell.longitudeIndex)
  pure (toSize gridIndex)

/-- The grid as constructed. -/
def emptyGrid : PplGrid := ⟨pplGridSize, fun _ => []⟩

/-- Push a person to the back of the cell of their home. -/
def addPerson (grid : PplGrid) (person : Person) : Except Fault PplGrid := do
  let gridIndex ← settings.getGridPos person.locationOfHome
  let cell ← grid.at gridIndex
  pure (grid.put gridIndex (cell ++ [person]))

/-- The grid after a sequence of completed additions. -/
def populate (people : List Person) : Except Fault PplGrid :=
  people.foldlM settings.addPerson emptyGrid

def ageWindow (parameters : PplMatchingParameters) : Except Fault (Date × Date) :=
  windowAround settings.today settings.maxAgeDifference parameters.ageOfUser

/-- The body of the loop, which computes the dates again for each person. -/
def considerPerson (parameters : PplMatchingParameters) (ppl : List Person) (person : Person)
    : Except Fault (List Person) := do
  let window ← settings.ageWindow parameters
  pure (if InWindow window person then ppl ++ [person] else ppl)

def findMatchingPpl (grid : PplGrid) (parameters : PplMatchingParameters)
    : Except Fault (List Person) := do
  let gridIndex ← settings.getGridPos parameters.locationOfUser
  let cell ← grid.at gridIndex
  cell.foldlM (settings.considerPerson parameters) []

-----------------------------------------------------------------------------------------
-- What a find is for
-----------------------------------------------------------------------------------------

/-- Born between the dates of the request, if it has dates. -/
def bornInRange (parameters : PplMatchingParameters) (person : Person) : Bool :=
  match settings.ageWindow parameters with
  | .ok window => decide (InWindow window person)
  | .error _ => false

/-- At home in the user's whole-degree cell, and of a similar age. -/
def Matches (parameters : PplMatchingParameters) (person : Person) : Prop :=
  settings.degreeCell person.locationOfHome = settings.degreeCell parameters.locationOfUser
  ∧ settings.bornInRange parameters person = true

instance (parameters : PplMatchingParameters) : DecidablePred (settings.Matches parameters) :=
  fun _ => inferInstanceAs (Decidable (_ ∧ _))

/-- The people can be added and a find among them returns the matching ones in their order, with
no access outside the vector on the way.
-/
def FindsExactly (people : List Person) (parameters : PplMatchingParameters) : Prop :=
  ∃ grid,
    settings.populate people = .ok grid
    ∧ settings.findMatchingPpl grid parameters
      = .ok (people.filter (settings.Matches parameters))

end My1stSettings

-----------------------------------------------------------------------------------------
-- Positions and slots
-----------------------------------------------------------------------------------------

/-- Cells of the map beyond the end of the vector: the row of the North Pole, and the last
column of the row before it.
-/
def DegreeCell.BeyondEnd (cell : DegreeCell) : Prop :=
  cell.latitudeIndex = 180 ∨ cell.latitudeIndex = 179 ∧ cell.longitudeIndex = 360

/-- The end of one row and the beginning of the next: two cells of the map with one slot. -/
def DegreeCell.Precedes (cell next : DegreeCell) : Prop :=
  cell.longitudeIndex = 360
  ∧ next.longitudeIndex = 0
  ∧ next.latitudeIndex = cell.latitudeIndex + 1

namespace My1stSettings

variable (settings : My1stSettings)

/-- The position's cell is one of the vector's. -/
def OnGrid (position : GeoPosition) : Prop :=
  ∃ cell, settings.degreeCell position = .ok cell ∧ ¬cell.BeyondEnd

/-- The positions are in two cells of the map that share a slot of the vector. -/
def Clash (position other : GeoPosition) : Prop :=
  ∃ cell next,
    settings.degreeCell position = .ok cell
    ∧ settings.degreeCell other = .ok next
    ∧ (cell.Precedes next ∨ next.Precedes cell)

/-- The access through `GetGridPos` is to one of the vector's cells. -/
def Inside (position : GeoPosition) : Prop :=
  ∃ gridIndex < pplGridSize, settings.getGridPos position = .ok gridIndex

variable {settings}

/-- A valid coordinate has an index between zero and twice the shift. -/
theorem degreeIndex_of_mem {shift : Nat} {coordinate : ℚ} (small : 2 * shift ≤ 2 ^ 24)
    (low : -(shift : ℚ) ≤ coordinate) (high : coordinate ≤ shift)
    : ∃ degrees ≤ 2 * shift,
        settings.degreeIndex shift (.finite coordinate) = .ok (degrees : Nat) := by
  obtain ⟨degrees, bound, converted⟩ := toInt?_addInt_of_mem settings.rounding small low high
  refine ⟨degrees, bound, ?_⟩
  rw [degreeIndex, converted]

/-- The slot of a cell of the map is the cell's number by rows. -/
theorem getGridPos_of_degreeCell {position : GeoPosition} {row column : Int}
    (cell : settings.degreeCell position = .ok ⟨row, column⟩) (rows : 0 ≤ row ∧ row ≤ 180)
    (columns : 0 ≤ column ∧ column ≤ 360)
    : settings.getGridPos position = .ok (row * 360 + column).toNat := by
  have start : checkedInt (row * 360) = .ok (row * 360) := if_pos (by omega)
  have sum : checkedInt (row * 360 + column) = .ok (row * 360 + column) := if_pos (by omega)
  have kept := @toSize_of_nonneg (row * 360 + column) (by omega) (by omega)
  simp only [getGridPos, cell, start, sum, kept, bind, Except.bind, pure, Except.pure]

/-- A valid position has a cell of the map. -/
theorem degreeCell_of_isValid {position : GeoPosition} (valid : position.isValid = true)
    : ∃ row column,
        settings.degreeCell position = .ok ⟨row, column⟩
        ∧ (0 ≤ row ∧ row ≤ 180)
        ∧ 0 ≤ column
        ∧ column ≤ 360 := by
  obtain ⟨latitude, longitude, rfl, latRange, longRange⟩ := GeoPosition.isValid_iff.mp valid
  obtain ⟨row, rowBound, rowEq⟩ := @degreeIndex_of_mem settings 90 latitude (by norm_num)
    (by exact_mod_cast latRange.1) (by exact_mod_cast latRange.2)
  obtain ⟨column, columnBound, columnEq⟩ := @degreeIndex_of_mem settings 180 longitude
    (by norm_num) (by exact_mod_cast longRange.1) (by exact_mod_cast longRange.2)
  refine ⟨row, column, ?_, by omega, by omega⟩
  rw [degreeCell, rowEq]
  exact congrArg (Functor.map (DegreeCell.mk row)) columnEq

/-- A valid position's access is inside the vector unless its cell is beyond the end. -/
theorem inside_iff {position : GeoPosition} (valid : position.isValid = true)
    : settings.Inside position ↔ settings.OnGrid position := by
  obtain ⟨row, column, cell, rows, columns⟩ := @degreeCell_of_isValid settings _ valid
  have slot := getGridPos_of_degreeCell cell rows columns
  simp only [Inside, OnGrid, cell, slot, Except.ok.injEq, exists_eq_left', exists_eq_right',
    DegreeCell.BeyondEnd, pplGridSize]
  omega

/-- Valid positions have one slot if they have one cell, and else only if they clash. -/
theorem getGridPos_eq_iff {position other : GeoPosition} (valid : position.isValid = true)
    (otherValid : other.isValid = true)
    : settings.getGridPos position = settings.getGridPos other
      ↔ settings.degreeCell position = settings.degreeCell other
        ∨ settings.Clash position other := by
  obtain ⟨row, column, cell, rows, columns⟩ := @degreeCell_of_isValid settings _ valid
  obtain ⟨otherRow, otherColumn, otherCell, otherRows, otherColumns⟩ :=
    @degreeCell_of_isValid settings _ otherValid
  have slot := getGridPos_of_degreeCell cell rows columns
  have otherSlot := getGridPos_of_degreeCell otherCell otherRows otherColumns
  simp only [Clash, cell, slot, otherCell, otherSlot, Except.ok.injEq, exists_and_left,
    exists_eq_left', DegreeCell.Precedes, DegreeCell.mk.injEq]
  omega

-----------------------------------------------------------------------------------------
-- Additions and finds
-----------------------------------------------------------------------------------------

/-- The grid has its size and holds exactly the given people, each slot in their order. -/
structure Stored (settings : My1stSettings) (people : List Person) (grid : PplGrid) : Prop where
  size : grid.size = pplGridSize
  cells
    : ∀ index,
        grid.cells index
        = people.filter (fun person => settings.getGridPos person.locationOfHome = .ok index)

theorem stored_empty : settings.Stored [] emptyGrid := ⟨rfl, fun _ => rfl⟩

/-- Adding somebody whose home is inside the vector succeeds and stores them last. -/
theorem Stored.addPerson {people : List Person} {grid : PplGrid} {person : Person}
    (stored : settings.Stored people grid) (inside : settings.Inside person.locationOfHome)
    : ∃ next, settings.addPerson grid person = .ok next
        ∧ settings.Stored (people ++ [person]) next := by
  obtain ⟨home, bound, slot⟩ := inside
  have accessed : grid.at home = .ok (grid.cells home) := if_pos (stored.size ▸ bound)
  refine ⟨grid.put home (grid.cells home ++ [person]), ?_, stored.size, fun index => ?_⟩
  · simp only [My1stSettings.addPerson, slot, accessed, bind, Except.bind, pure, Except.pure]
  · rw [List.filter_append]
    by_cases here : index = home
    · subst here
      rw [PplGrid.put_cells_self, stored.cells]
      simp [slot]
    · rw [PplGrid.put_cells_other _ _ here, stored.cells]
      simp [slot, Ne.symm here]

/-- What was accessed was inside the vector. -/
theorem inside_of_at {position : GeoPosition} {grid : PplGrid} {index : Nat} {cell : List Person}
    (size : grid.size = pplGridSize) (slot : settings.getGridPos position = .ok index)
    (accessed : grid.at index = .ok cell)
    : settings.Inside position := by
  unfold PplGrid.at at accessed
  split at accessed
  · exact ⟨index, size ▸ ‹_›, slot⟩
  · cases accessed

/-- Any people can be added if their homes are inside the vector, and only then. Witness:
induction over them, each addition storing one more.
-/
theorem Stored.populate_iff {earlier : List Person} {grid : PplGrid} (more : List Person)
    (stored : settings.Stored earlier grid)
    : ((∃ final, more.foldlM settings.addPerson grid = .ok final)
        ↔ ∀ person ∈ more, settings.Inside person.locationOfHome)
      ∧ ∀ final, more.foldlM settings.addPerson grid = .ok final
        → settings.Stored (earlier ++ more) final := by
  induction more generalizing earlier grid with
  | nil =>
      refine ⟨iff_of_true ⟨grid, rfl⟩ (by simp), fun final run => ?_⟩
      cases run
      simpa using stored
  | cons person rest ih =>
      by_cases inside : settings.Inside person.locationOfHome
      · obtain ⟨next, added, more⟩ := stored.addPerson inside
        have later := ih more
        have run : (person :: rest).foldlM settings.addPerson grid
            = rest.foldlM settings.addPerson next := by
          rw [List.foldlM_cons, added]
          rfl
        simpa [run, inside] using later
      · have failed (final : PplGrid) (run : (person :: rest).foldlM settings.addPerson grid
            = .ok final) : False := by
          rw [List.foldlM_cons] at run
          obtain ⟨_, added, _⟩ := of_bind_eq_ok run
          obtain ⟨index, slot, added⟩ := of_bind_eq_ok added
          obtain ⟨_, accessed, _⟩ := of_bind_eq_ok added
          exact inside (inside_of_at stored.size slot accessed)
        refine ⟨iff_of_false (fun ⟨final, run⟩ => failed final run) ?_, fun final run => ?_⟩
        · exact fun all => inside (all person (by simp))
        · exact (failed final run).elim

/-- With dates, the loop keeps the people born in range, by induction over the cell. -/
theorem considerPpl_of_dates {parameters : PplMatchingParameters} {window : Date × Date}
    (dates : settings.ageWindow parameters = .ok window) (cell earlier : List Person)
    : cell.foldlM (settings.considerPerson parameters) earlier
      = .ok (earlier ++ cell.filter (settings.bornInRange parameters)) := by
  induction cell generalizing earlier with
  | nil => simp [pure, Except.pure]
  | cons person rest ih =>
      have born : settings.bornInRange parameters person = decide (InWindow window person) := by
        rw [bornInRange, dates]
      have considered : settings.considerPerson parameters earlier person
          = .ok (if InWindow window person then earlier ++ [person] else earlier) := by
        simp only [considerPerson, dates, bind, Except.bind, pure, Except.pure]
      rw [List.foldlM_cons, considered]
      refine (ih _).trans (congrArg Except.ok ?_)
      by_cases inWindow : InWindow window person
      · rw [if_pos inWindow, List.filter_cons_of_pos (by simpa [born] using inWindow),
          List.append_assoc, List.singleton_append]
      · rw [if_neg inWindow, List.filter_cons_of_neg (by simpa [born] using inWindow)]

/-- The loop ends with a result if the dates exist, or there is nobody to compute them for. -/
theorem considerPpl_iff {parameters : PplMatchingParameters} {cell found : List Person}
    : cell.foldlM (settings.considerPerson parameters) [] = .ok found
      ↔ ((∃ window, settings.ageWindow parameters = .ok window) ∨ cell = [])
        ∧ found = cell.filter (settings.bornInRange parameters) := by
  cases dates : settings.ageWindow parameters with
  | error fault =>
      cases cell with
      | nil => simp [pure, Except.pure, eq_comm]
      | cons person rest =>
          have failed : settings.considerPerson parameters [] person = .error fault := by
            simp only [considerPerson, dates, bind, Except.bind]
          simp [List.foldlM_cons, failed, bind, Except.bind]
  | ok window =>
      rw [considerPpl_of_dates dates]
      simp [eq_comm]

/-- The people in the user's slot. -/
def inSlot (settings : My1stSettings) (people : List Person)
    (parameters : PplMatchingParameters)
    : List Person :=
  people.filter
    (fun person =>
      settings.getGridPos person.locationOfHome
      = settings.getGridPos parameters.locationOfUser)

/-- A find returns if its access is inside the vector, and the dates exist or nobody is in the
slot; and it returns the people of the slot who are born in range.
-/
theorem Stored.findMatchingPpl_iff {people found : List Person} {grid : PplGrid}
    {parameters : PplMatchingParameters} (stored : settings.Stored people grid)
    : settings.findMatchingPpl grid parameters = .ok found
      ↔ settings.Inside parameters.locationOfUser
        ∧ ((∃ window, settings.ageWindow parameters = .ok window)
          ∨ settings.inSlot people parameters = [])
        ∧ found
          = (settings.inSlot people parameters).filter (settings.bornInRange parameters) := by
  constructor
  · intro run
    obtain ⟨index, home, run⟩ := of_bind_eq_ok run
    obtain ⟨cell, accessed, run⟩ := of_bind_eq_ok run
    refine ⟨inside_of_at stored.size home accessed, ?_⟩
    have held : cell = settings.inSlot people parameters := by
      unfold PplGrid.at at accessed
      split at accessed
      · rw [← Except.ok.inj accessed, stored.cells, inSlot, home]
      · cases accessed
    exact considerPpl_iff.mp (held ▸ run)
  · rintro ⟨⟨index, bound, home⟩, looped⟩
    have accessed : grid.at index = .ok (settings.inSlot people parameters) := by
      rw [PplGrid.at, if_pos (stored.size ▸ bound), stored.cells, inSlot, home]
    simp only [findMatchingPpl, home, accessed, bind, Except.bind]
    exact considerPpl_iff.mpr looped

-----------------------------------------------------------------------------------------
-- When a find is exact
-----------------------------------------------------------------------------------------

/-- The borders of the map do not come into it. -/
structure Clear (settings : My1stSettings) (people : List Person)
    (parameters : PplMatchingParameters)
    : Prop where
  user : settings.OnGrid parameters.locationOfUser
  homes : ∀ person ∈ people, settings.OnGrid person.locationOfHome
  /-- Nobody of a matching age lives where the next row begins or the last one ended. -/
  apart
    : ∀ person ∈ people,
        settings.bornInRange parameters person = true
        → ¬settings.Clash person.locationOfHome parameters.locationOfUser
  /-- The dates of the request exist, or nobody is there to be compared with them. -/
  dates
    : (∃ window, settings.ageWindow parameters = .ok window)
      ∨ ∀ person ∈ people,
        settings.degreeCell person.locationOfHome
            ≠ settings.degreeCell parameters.locationOfUser
          ∧ ¬settings.Clash person.locationOfHome parameters.locationOfUser

section Exactness

variable {people : List Person} {parameters : PplMatchingParameters}

/-- Positions that clash are in different cells. -/
theorem Clash.cells_ne {position other : GeoPosition} (clash : settings.Clash position other)
    : settings.degreeCell position ≠ settings.degreeCell other := by
  obtain ⟨cell, next, here, there, precedes⟩ := clash
  rw [here, there]
  intro same
  cases same
  rcases precedes with ⟨last, first, _⟩ | ⟨last, first, _⟩ <;> omega

/-- In the user's slot are those in the user's cell and those who clash with it. -/
theorem mem_inSlot_iff (homes : ∀ person ∈ people, person.locationOfHome.isValid = true)
    (user : parameters.locationOfUser.isValid = true) {person : Person}
    : person ∈ settings.inSlot people parameters
      ↔ person ∈ people
        ∧ (settings.degreeCell person.locationOfHome
            = settings.degreeCell parameters.locationOfUser
          ∨ settings.Clash person.locationOfHome parameters.locationOfUser) := by
  rw [inSlot, List.mem_filter, decide_eq_true_eq]
  exact and_congr_right fun member => getGridPos_eq_iff (homes person member) user

/-- The people of the slot who are born in range are the matching ones unless some clash. -/
theorem filter_matches_iff (homes : ∀ person ∈ people, person.locationOfHome.isValid = true)
    (user : parameters.locationOfUser.isValid = true)
    : people.filter (settings.Matches parameters)
        = (settings.inSlot people parameters).filter (settings.bornInRange parameters)
      ↔ ∀ person ∈ people,
        settings.bornInRange parameters person = true
        → ¬settings.Clash person.locationOfHome parameters.locationOfUser := by
  constructor
  · intro same person member born clash
    have found : person
        ∈ (settings.inSlot people parameters).filter (settings.bornInRange parameters) :=
      List.mem_filter.mpr ⟨(mem_inSlot_iff homes user).mpr ⟨member, Or.inr clash⟩, born⟩
    rw [← same, List.mem_filter, decide_eq_true_eq] at found
    exact clash.cells_ne found.2.1
  · intro apart
    rw [inSlot, List.filter_filter]
    refine List.filter_congr fun person member => ?_
    have slot := @getGridPos_eq_iff settings _ _ (homes person member) user
    rw [Bool.eq_iff_iff, Bool.and_eq_true, decide_eq_true_eq, decide_eq_true_eq, Matches, slot]
    constructor
    · rintro ⟨here, born⟩
      exact ⟨born, Or.inl here⟩
    · rintro ⟨born, here | clash⟩
      · exact ⟨here, born⟩
      · exact absurd clash (apart person member born)

/-- Among people with valid homes, a find from a valid position is exact, and no access on the
way is outside the vector, exactly if the borders of the map do not come into it.
-/
theorem findsExactly_iff (homes : ∀ person ∈ people, person.locationOfHome.isValid = true)
    (user : parameters.locationOfUser.isValid = true)
    : settings.FindsExactly people parameters ↔ settings.Clear people parameters := by
  obtain ⟨populates, stores⟩ := (@stored_empty settings).populate_iff people
  have inside (person : Person) (member : person ∈ people)
      := @inside_iff settings _ (homes person member)
  have nobody
      : settings.inSlot people parameters = []
        ↔ ∀ person ∈ people,
          settings.degreeCell person.locationOfHome
              ≠ settings.degreeCell parameters.locationOfUser
            ∧ ¬settings.Clash person.locationOfHome parameters.locationOfUser := by
    simp only [List.eq_nil_iff_forall_not_mem, mem_inSlot_iff homes user, not_and, not_or]
  constructor
  · rintro ⟨grid, populated, found⟩
    have stored := stores grid populated
    obtain ⟨access, dates, same⟩ := stored.findMatchingPpl_iff.mp found
    refine ⟨(inside_iff user).mp access, fun person member => ?_, ?_, dates.imp id nobody.mp⟩
    · exact (inside person member).mp (populates.mp ⟨grid, populated⟩ person member)
    · exact (filter_matches_iff homes user).mp same
  · intro clear
    obtain ⟨grid, populated⟩ := populates.mpr fun person member =>
      (inside person member).mpr (clear.homes person member)
    have stored := stores grid populated
    refine ⟨grid, populated, stored.findMatchingPpl_iff.mpr ⟨?_, ?_, ?_⟩⟩
    · exact (inside_iff user).mpr clear.user
    · exact clear.dates.imp id nobody.mpr
    · exact (filter_matches_iff homes user).mpr clear.apart

end Exactness

end My1stSettings

/-- Ages five years apart. -/
def firstSettings : My1stSettings := ⟨5, wholeDegrees.today, .exact⟩

/-- An islander who has moved to the North Pole, and one at the antimeridian. -/
def polarExplorer : Person := { islander with locationOfHome := ⟨.finite 90, .finite 0⟩ }

def dateliner : Person := { islander with locationOfHome := ⟨.finite (1 / 2), .finite 180⟩ }

/-- A request from the other side of the antimeridian, one degree to the north. -/
def beyondDateline : PplMatchingParameters := ⟨⟨.finite (3 / 2), .finite (-180)⟩, 25⟩

/-- Nobody can be added at the North Pole, and a find takes somebody for a neighbour who lives
more than a degree away.
-/
theorem findsExactly_fails
    : polarExplorer.locationOfHome.isValid = true
      ∧ firstSettings.addPerson My1stSettings.emptyGrid polarExplorer = .error .gridOutOfBounds
      ∧ ¬firstSettings.FindsExactly [polarExplorer] islandRequest
      ∧ dateliner.locationOfHome.isValid = true
      ∧ beyondDateline.locationOfUser.isValid = true
      ∧ ¬firstSettings.FindsExactly [dateliner] beyondDateline := by
  have refused : firstSettings.addPerson My1stSettings.emptyGrid polarExplorer
      = .error .gridOutOfBounds := by
    have slot : firstSettings.getGridPos polarExplorer.locationOfHome = .ok 64980 := by
      decide +kernel
    rw [My1stSettings.addPerson, slot]
    rfl
  have mistaken : (do
        let grid ← firstSettings.populate [dateliner]
        firstSettings.findMatchingPpl grid beyondDateline)
      = .ok [dateliner] := by
    decide +kernel
  have expected : [dateliner].filter (firstSettings.Matches beyondDateline) = [] := by
    decide +kernel
  refine ⟨by decide +kernel, refused, ?_, by decide +kernel, by decide +kernel, ?_⟩
  · rintro ⟨grid, populated, _⟩
    rw [My1stSettings.populate, List.foldlM_cons, refused] at populated
    cases populated
  · rintro ⟨grid, populated, found⟩
    rw [populated] at mistaken
    rw [expected] at found
    cases found.symm.trans mistaken

/-- Away from the borders somebody is found. -/
theorem findsExactly_iff_island
    : ∃ grid,
        firstSettings.populate [islander] = .ok grid
        ∧ firstSettings.findMatchingPpl grid islandRequest = .ok [islander] := by
  have cell : firstSettings.degreeCell ⟨.finite 0, .finite 0⟩ = .ok ⟨90, 180⟩ := by decide +kernel
  have clear : firstSettings.Clear [islander] islandRequest := by
    have inside : firstSettings.OnGrid ⟨.finite 0, .finite 0⟩ :=
      ⟨_, cell, by simp [DegreeCell.BeyondEnd]⟩
    refine ⟨inside, fun _ member => List.mem_singleton.mp member ▸ inside, ?_,
      .inl ⟨islandWindow, by decide +kernel⟩⟩
    rintro person member _ clash
    cases List.mem_singleton.mp member
    exact clash.cells_ne rfl
  obtain ⟨grid, populates, found⟩ :=
    (My1stSettings.findsExactly_iff
      (fun _ member => List.mem_singleton.mp member ▸ nullIsland_isValid)
      nullIsland_isValid).mpr clear
  have matching : [islander].filter (firstSettings.Matches islandRequest) = [islander] := by
    decide +kernel
  exact ⟨grid, populates, matching ▸ found⟩

end PplMe.Engine

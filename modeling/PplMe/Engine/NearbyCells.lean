import PplMe.Engine.NeighbourWalks

/-! The cells a prototype find inspects.
What the walks around a user visit is described by the edges of the cells alone: a distance
within reach at two edges is within reach at every edge between them.
-/

namespace PplMe.Engine

open PplMe.Core TickedWalks

-----------------------------------------------------------------------------------------
-- What is inspected
-----------------------------------------------------------------------------------------

namespace PrototypeSettings

section Inspected

variable (settings : PrototypeSettings) (origin : Origin)

/-- The parallel at a row's southern edge is within the maximum distance of the user. -/
def ReachesParallel (edge : Nat) : Prop :=
  approxDistanceLatitude origin.place.latitude (edge / settings.resolution - 90)
  ≤ settings.maxDistance

/-- The meridian at a column's western edge is within the maximum distance of the user. -/
def ReachesMeridian (edge : Nat) : Prop :=
  settings.approxDistanceLongitude origin.place.latitude origin.place.longitude
    (edge / settings.resolution - 180)
  ≤ settings.maxDistance

/-- Columns to the east whose western edges are in reach, as far as the antimeridian and for
less than a quarter of the globe.
-/
def InspectsEast (column : Nat) : Prop :=
  origin.cell.longitudeIndex < column
  ∧ column ≤ 360 * settings.resolution
  ∧ column < origin.cell.longitudeIndex + 90 * settings.resolution
  ∧ settings.ReachesMeridian origin (origin.cell.longitudeIndex + 1)
  ∧ settings.ReachesMeridian origin column

/-- Columns to the west whose eastern edges are in reach, likewise. -/
def InspectsWest (column : Nat) : Prop :=
  column < origin.cell.longitudeIndex
  ∧ origin.cell.longitudeIndex < column + 90 * settings.resolution
  ∧ settings.ReachesMeridian origin origin.cell.longitudeIndex
  ∧ settings.ReachesMeridian origin (column + 1)

/-- Rows to the north whose southern edges are in reach, short of the Pole. -/
def InspectsNorth (row : Nat) : Prop :=
  origin.cell.latitudeIndex < row
  ∧ row < 180 * settings.resolution
  ∧ settings.ReachesParallel origin (origin.cell.latitudeIndex + 1)
  ∧ settings.ReachesParallel origin row

/-- Rows to the south whose northern edges are in reach, short of the Pole's own row. -/
def InspectsSouth (row : Nat) : Prop :=
  0 < row
  ∧ row < origin.cell.latitudeIndex
  ∧ settings.ReachesParallel origin origin.cell.latitudeIndex
  ∧ settings.ReachesParallel origin (row + 1)

/-- The cells a find inspects. To the south the user's own column is left out. -/
def Inspects (cell : CellLocator) : Prop :=
  (cell.latitudeIndex = origin.cell.latitudeIndex
      ∨ settings.InspectsNorth origin cell.latitudeIndex)
    ∧ cell.longitudeIndex = origin.cell.longitudeIndex
  ∨ (cell.latitudeIndex = origin.cell.latitudeIndex
        ∨ settings.InspectsNorth origin cell.latitudeIndex
        ∨ settings.InspectsSouth origin cell.latitudeIndex)
    ∧ (settings.InspectsEast origin cell.longitudeIndex
        ∨ settings.InspectsWest origin cell.longitudeIndex)

end Inspected

variable {settings : PrototypeSettings} {origin : Origin}

/-- Scaled, a point between two others is no farther than one of them. -/
theorem abs_mul_le_of_between {scale near middle far bound : ℚ} (nearMiddle : near ≤ middle)
    (middleFar : middle ≤ far) (nearBound : |scale * near| ≤ bound)
    (farBound : |scale * far| ≤ bound)
    : |scale * middle| ≤ bound := by
  rw [abs_mul] at *
  calc |scale| * |middle|
      ≤ |scale| * max |near| |far| := by
        gcongr
        exact abs_le_max_abs_abs nearMiddle middleFar
    _ = max (|scale| * |near|) (|scale| * |far|) := mul_max_of_nonneg _ _ (abs_nonneg _)
    _ ≤ bound := max_le nearBound farBound

/-- Edges divided by the resolution stand in the order of the edges. -/
theorem edge_le_edge {left right : Nat} (le : left ≤ right) (shift : ℚ)
    : (left : ℚ) / settings.resolution - shift ≤ right / settings.resolution - shift := by
  gcongr

/-- Parallels between two in reach are in reach. -/
theorem ReachesParallel.between {near middle far : Nat}
    (reachesNear : settings.ReachesParallel origin near)
    (reachesFar : settings.ReachesParallel origin far) (nearMiddle : near ≤ middle)
    (middleFar : middle ≤ far)
    : settings.ReachesParallel origin middle := by
  simp only [ReachesParallel, approxDistanceLatitude, mul_comm _ (110 : ℚ)] at *
  exact abs_mul_le_of_between (sub_le_sub_right (edge_le_edge nearMiddle _) _)
    (sub_le_sub_right (edge_le_edge middleFar _) _) reachesNear reachesFar

/-- Meridians between two in reach are in reach, whatever the cosine. -/
theorem ReachesMeridian.between {near middle far : Nat}
    (reachesNear : settings.ReachesMeridian origin near)
    (reachesFar : settings.ReachesMeridian origin far) (nearMiddle : near ≤ middle)
    (middleFar : middle ≤ far)
    : settings.ReachesMeridian origin middle :=
  abs_mul_le_of_between (sub_le_sub_right (edge_le_edge nearMiddle _) _)
    (sub_le_sub_right (edge_le_edge middleFar _) _) reachesNear reachesFar

-----------------------------------------------------------------------------------------
-- Tests
-----------------------------------------------------------------------------------------

/-- Near the origin, a column is not too far east if its western edge is in reach. -/
theorem isTooFarEast_eq_false_iff {cell : CellLocator}
    (near : settings.isTooFarFromOrigin origin cell = false)
    : settings.isTooFarEast origin cell = false
      ↔ settings.ReachesMeridian origin cell.longitudeIndex := by
  simp [isTooFarEast, near, ReachesMeridian]

/-- Near the origin, a column is not too far west if its eastern edge is in reach. -/
theorem isTooFarWest_eq_false_iff {cell : CellLocator}
    (near : settings.isTooFarFromOrigin origin cell = false)
    : settings.isTooFarWest origin cell = false
      ↔ settings.ReachesMeridian origin (cell.longitudeIndex + 1) := by
  simp [isTooFarWest, near, ReachesMeridian]

/-- Short of the Pole, a row is not too far north if its southern edge is in reach. -/
theorem isTooFarNorth_eq_false_iff {cell : CellLocator}
    (short : cell.latitudeIndex < 180 * settings.resolution)
    : settings.isTooFarNorth origin cell = false
      ↔ settings.ReachesParallel origin cell.latitudeIndex := by
  simp [isTooFarNorth, not_le.mpr short, ReachesParallel]

/-- Short of the Pole, a row is not too far south if its northern edge is in reach. -/
theorem isTooFarSouth_eq_false_iff {cell : CellLocator} (short : 0 < cell.latitudeIndex)
    : settings.isTooFarSouth origin cell = false
      ↔ settings.ReachesParallel origin (cell.latitudeIndex + 1) := by
  simp [isTooFarSouth, short.ne', ReachesParallel]

-----------------------------------------------------------------------------------------
-- The walks
-----------------------------------------------------------------------------------------

section Visited

variable (settings origin)

/-- The cells of a row that a find visits to the east of the user's column. -/
def eastCells (row : Nat) : List CellLocator :=
  visited (settings.isTooFarEast origin) (settings.eastPath origin row)
    (settings.eastLength origin)

def westCells (row : Nat) : List CellLocator :=
  visited (settings.isTooFarWest origin) (settings.westPath origin row)
    (settings.westLength origin)

def sameLatitudeCells (row : Nat) : List CellLocator :=
  settings.eastCells origin row ++ settings.westCells origin row

/-- The cells of the walk in order: the user's row, the rows to the north with the user's column,
and the rows to the south without it.
-/
def nearbyCells : List CellLocator :=
  settings.sameLatitudeCells origin origin.cell.latitudeIndex
  ++ (settings.northRows origin).flatMap
      (fun cell => cell :: settings.sameLatitudeCells origin cell.latitudeIndex)
  ++ (settings.southRows origin).flatMap
      (fun cell => settings.sameLatitudeCells origin cell.latitudeIndex)

/-- The nearby cells are those that the walks visit with the code's comparisons. -/
theorem nearbyCells_eq
    : settings.nearbyCells origin
      = settings.visitedNeighbours (settings.distanceComparisons origin) origin := rfl

end Visited

/-- The walk east visits the columns inspected to the east. -/
theorem mem_eastCells (onMap : origin.OnMap settings) {row : Nat} {cell : CellLocator}
    : cell ∈ settings.eastCells origin row
      ↔ cell.latitudeIndex = row ∧ settings.InspectsEast origin cell.longitudeIndex := by
  have column := onMap.column
  have tests (number : Nat) (east : origin.cell.longitudeIndex < number)
      (inside : number ≤ origin.cell.longitudeIndex + settings.eastLength origin)
      : settings.isTooFarEast origin ⟨row, number⟩ = false
        ↔ settings.ReachesMeridian origin number := by
    unfold eastLength at inside
    apply isTooFarEast_eq_false_iff
    rw [Bool.eq_false_iff, Ne, isTooFarFromOrigin_iff column]
    all_goals
      dsimp only
      omega
  refine (mem_visited_ascending (fun number => ⟨row, number⟩) origin.cell.longitudeIndex
    ReachesMeridian.between (fun _ => eastPath_of_lt) tests).trans ?_
  unfold eastLength
  obtain ⟨cellRow, cellColumn⟩ := cell
  constructor
  · rintro ⟨_, east, inside, same, first, last⟩
    cases same
    exact ⟨rfl, east, by dsimp only; omega, by dsimp only; omega, first, last⟩
  · rintro ⟨rfl, east, inside, quarter, first, last⟩
    dsimp only at inside quarter
    exact ⟨cellColumn, east, by omega, rfl, first, last⟩

/-- The walk west visits the columns inspected to the west. -/
theorem mem_westCells (onMap : origin.OnMap settings) {row : Nat} {cell : CellLocator}
    : cell ∈ settings.westCells origin row
      ↔ cell.latitudeIndex = row ∧ settings.InspectsWest origin cell.longitudeIndex := by
  have column := onMap.column
  have tests (number : Nat) (west : number < origin.cell.longitudeIndex)
      (inside : origin.cell.longitudeIndex ≤ number + settings.westLength origin)
      : settings.isTooFarWest origin ⟨row, number⟩ = false
        ↔ settings.ReachesMeridian origin (number + 1) := by
    unfold westLength at inside
    apply isTooFarWest_eq_false_iff
    rw [Bool.eq_false_iff, Ne, isTooFarFromOrigin_iff column]
    all_goals
      dsimp only
      omega
  have short : settings.westLength origin ≤ origin.cell.longitudeIndex := min_le_left _ _
  refine (mem_visited_descending (fun number => ⟨row, number⟩) origin.cell.longitudeIndex
    ReachesMeridian.between short (fun _ => westPath_of_lt) tests).trans ?_
  unfold westLength
  obtain ⟨cellRow, cellColumn⟩ := cell
  constructor
  · rintro ⟨_, west, inside, same, first, last⟩
    cases same
    exact ⟨rfl, west, by dsimp only; omega, first, last⟩
  · rintro ⟨rfl, west, quarter, first, last⟩
    dsimp only at west quarter
    exact ⟨cellColumn, west, by omega, rfl, first, last⟩

/-- A row's visited cells are in the row and in the inspected columns. -/
theorem mem_sameLatitudeCells (onMap : origin.OnMap settings) {row : Nat} {cell : CellLocator}
    : cell ∈ settings.sameLatitudeCells origin row
      ↔ cell.latitudeIndex = row
        ∧ (settings.InspectsEast origin cell.longitudeIndex
          ∨ settings.InspectsWest origin cell.longitudeIndex) := by
  rw [sameLatitudeCells, List.mem_append, mem_eastCells onMap, mem_westCells onMap, and_or_left]

/-- The walks around a user end, and push the nearby cells in their order. -/
theorem getNearbyCells_eq (onMap : origin.OnMap settings)
    : settings.getNearbyCells origin = some (settings.nearbyCells origin) := by
  rw [getNearbyCells_eq_walkNeighbours, walkNeighbours_eq onMap, nearbyCells_eq]

/-- The rows of the walk north are the rows inspected to the north. -/
theorem mem_northRows {cell : CellLocator}
    : cell ∈ settings.northRows origin
      ↔ settings.InspectsNorth origin cell.latitudeIndex
        ∧ cell.longitudeIndex = origin.cell.longitudeIndex := by
  have tests (number : Nat) (north : origin.cell.latitudeIndex < number)
      (inside : number ≤ origin.cell.latitudeIndex + settings.northLength origin)
      : settings.isTooFarNorth origin ⟨number, origin.cell.longitudeIndex⟩ = false
        ↔ settings.ReachesParallel origin number := by
    unfold northLength at inside
    apply isTooFarNorth_eq_false_iff
    dsimp only
    omega
  have path (round : Nat) (_ : round < settings.northLength origin)
      : northPath origin round
        = ⟨origin.cell.latitudeIndex + 1 + round, origin.cell.longitudeIndex⟩ :=
    rfl
  refine (mem_visited_ascending (fun number => ⟨number, origin.cell.longitudeIndex⟩)
    origin.cell.latitudeIndex ReachesParallel.between path tests).trans ?_
  unfold northLength
  obtain ⟨row, column⟩ := cell
  constructor
  · rintro ⟨_, north, inside, same, first, last⟩
    cases same
    exact ⟨⟨north, by dsimp only; omega, first, last⟩, rfl⟩
  · rintro ⟨⟨north, short, first, last⟩, rfl⟩
    dsimp only at short
    exact ⟨row, north, by omega, rfl, first, last⟩

/-- The rows of the walk south are the rows inspected to the south. -/
theorem mem_southRows (onMap : origin.OnMap settings) {cell : CellLocator}
    : cell ∈ settings.southRows origin
      ↔ settings.InspectsSouth origin cell.latitudeIndex
        ∧ cell.longitudeIndex = origin.cell.longitudeIndex := by
  have path (round : Nat) (below : round < southLength origin)
      : southPath origin round
        = ⟨origin.cell.latitudeIndex - 1 - round, origin.cell.longitudeIndex⟩ := by
    rw [southPath_of_lt onMap below, Nat.sub_sub, Nat.add_comm 1 round]
  have tests (number : Nat) (south : number < origin.cell.latitudeIndex)
      (inside : origin.cell.latitudeIndex ≤ number + southLength origin)
      : settings.isTooFarSouth origin ⟨number, origin.cell.longitudeIndex⟩ = false
        ↔ settings.ReachesParallel origin (number + 1) := by
    unfold southLength at inside
    apply isTooFarSouth_eq_false_iff
    dsimp only
    omega
  have short : southLength origin ≤ origin.cell.latitudeIndex := Nat.sub_le _ _
  refine (mem_visited_descending (fun number => ⟨number, origin.cell.longitudeIndex⟩)
    origin.cell.latitudeIndex ReachesParallel.between short path tests).trans ?_
  unfold southLength
  obtain ⟨row, column⟩ := cell
  constructor
  · rintro ⟨_, south, inside, same, first, last⟩
    cases same
    exact ⟨⟨by dsimp only; omega, south, first, last⟩, rfl⟩
  · rintro ⟨⟨positive, south, first, last⟩, rfl⟩
    dsimp only at positive south
    exact ⟨row, south, by omega, rfl, first, last⟩

-----------------------------------------------------------------------------------------
-- All inspected cells
-----------------------------------------------------------------------------------------

/-- The user's cell and the nearby cells are those inspected. -/
theorem mem_inspected (onMap : origin.OnMap settings) {cell : CellLocator}
    : cell ∈ origin.cell :: settings.nearbyCells origin ↔ settings.Inspects origin cell := by
  have north : cell ∈ (settings.northRows origin).flatMap
        (fun cell => cell :: settings.sameLatitudeCells origin cell.latitudeIndex)
      ↔ settings.InspectsNorth origin cell.latitudeIndex
        ∧ (cell.longitudeIndex = origin.cell.longitudeIndex
          ∨ settings.InspectsEast origin cell.longitudeIndex
          ∨ settings.InspectsWest origin cell.longitudeIndex) := by
    simp only [List.mem_flatMap, List.mem_cons, mem_northRows, mem_sameLatitudeCells onMap]
    constructor
    · rintro ⟨row, ⟨inspected, own⟩, rfl | ⟨same, columns⟩⟩
      · exact ⟨inspected, Or.inl own⟩
      · exact ⟨same ▸ inspected, Or.inr columns⟩
    · rintro ⟨inspected, own | columns⟩
      · exact ⟨cell, ⟨inspected, own⟩, Or.inl rfl⟩
      · exact ⟨⟨cell.latitudeIndex, origin.cell.longitudeIndex⟩, ⟨inspected, rfl⟩,
          Or.inr ⟨rfl, columns⟩⟩
  have south : cell ∈ (settings.southRows origin).flatMap
        (fun cell => settings.sameLatitudeCells origin cell.latitudeIndex)
      ↔ settings.InspectsSouth origin cell.latitudeIndex
        ∧ (settings.InspectsEast origin cell.longitudeIndex
          ∨ settings.InspectsWest origin cell.longitudeIndex) := by
    simp only [List.mem_flatMap, mem_southRows onMap, mem_sameLatitudeCells onMap]
    constructor
    · rintro ⟨row, ⟨inspected, _⟩, same, columns⟩
      exact ⟨same ▸ inspected, columns⟩
    · rintro ⟨inspected, columns⟩
      exact ⟨⟨cell.latitudeIndex, origin.cell.longitudeIndex⟩, ⟨inspected, rfl⟩, rfl, columns⟩
  have own : cell = origin.cell
      ↔ cell.latitudeIndex = origin.cell.latitudeIndex
        ∧ cell.longitudeIndex = origin.cell.longitudeIndex :=
    iff_of_eq (CellLocator.mk.injEq _ _ _ _)
  rw [nearbyCells, List.mem_cons, List.mem_append, List.mem_append, north, south, own,
    mem_sameLatitudeCells onMap, Inspects]
  generalize (settings.InspectsEast origin cell.longitudeIndex
    ∨ settings.InspectsWest origin cell.longitudeIndex) = columns
  simp only [or_and_right, and_or_left, or_assoc]
  exact or_congr_right or_left_comm

/-- No cell is inspected twice. -/
theorem inspected_nodup (onMap : origin.OnMap settings)
    : (origin.cell :: settings.nearbyCells origin).Nodup := by
  rw [nearbyCells_eq]
  exact visitedNeighbours_nodup onMap

/-- Inspected cells have rows and columns of the map. -/
theorem Inspects.bounds (onMap : origin.OnMap settings) {cell : CellLocator}
    (inspected : settings.Inspects origin cell)
    : cell.latitudeIndex ≤ 180 * settings.resolution
      ∧ cell.longitudeIndex ≤ 360 * settings.resolution := by
  have row := onMap.row
  have column := onMap.column
  constructor
  · rcases inspected with ⟨same | north, _⟩ | ⟨same | north | south, _⟩
    · omega
    · exact north.2.1.le
    · omega
    · exact north.2.1.le
    · exact south.2.1.le.trans row
  · rcases inspected with ⟨_, same⟩ | ⟨_, east | west⟩
    · omega
    · exact east.2.1
    · exact west.1.le.trans column

end PrototypeSettings

end PplMe.Engine

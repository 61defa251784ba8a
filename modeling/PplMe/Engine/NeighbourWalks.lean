import PplMe.Engine.PrototypeGrid
import Mathlib.Tactic.Linarith

/-! Where the walks around a user can lead, however the distances compare.
The two walks along a row ask whether a column is too far; whatever they are told, they end
after at most a quarter of the globe and have visited distinct columns of the map.
-/

namespace PplMe.Engine

open PplMe.Core TickedWalks

/-- An origin where `ToCellLocator` can put a user who is not beyond the North Pole. -/
structure Origin.OnMap (settings : PrototypeSettings) (origin : Origin) : Prop where
  row : origin.cell.latitudeIndex ≤ 180 * settings.resolution
  column : origin.cell.longitudeIndex ≤ 360 * settings.resolution
  north : origin.place.latitude ≤ 90

/-- Which cells the comparisons of distances along a row find too far. -/
structure Comparisons where
  tooFarEast : CellLocator → Bool
  tooFarWest : CellLocator → Bool

namespace PrototypeSettings

-----------------------------------------------------------------------------------------
-- The walks with any outcome of the comparisons
-----------------------------------------------------------------------------------------

section Walks

variable (settings : PrototypeSettings) (comparisons : Comparisons) (origin : Origin)

/-- `IsTooFarEast` with the outcome of its comparison. -/
def stopsEast (cell : CellLocator) : Bool :=
  if settings.isTooFarFromOrigin origin cell then true else comparisons.tooFarEast cell

/-- `IsTooFarWest` with the outcome of its comparison. -/
def stopsWest (cell : CellLocator) : Bool :=
  if settings.isTooFarFromOrigin origin cell then true else comparisons.tooFarWest cell

def walkSameLatitude (currentPosition : CellLocator) (cells : List CellLocator)
    : Option (List CellLocator) := do
  let cells ← walk settings.tickEast (settings.stopsEast comparisons origin) pushBack
    settings.walkFuel (settings.tickEast currentPosition) cells
  walk settings.tickWest (settings.stopsWest comparisons origin) pushBack settings.walkFuel
    (settings.tickWest currentPosition) cells

def walkNeighbours : Option (List CellLocator) := do
  let bullseye := origin.cell
  let cells ← settings.walkSameLatitude comparisons origin bullseye []
  let cells ← walk tickNorth (settings.isTooFarNorth origin)
    (fun cell cells => settings.walkSameLatitude comparisons origin cell (cells ++ [cell]))
    settings.walkFuel (tickNorth bullseye) cells
  walk tickSouth (settings.isTooFarSouth origin)
    (fun cell cells => settings.walkSameLatitude comparisons origin cell cells)
    settings.walkFuel (tickSouth bullseye) cells

/-- The comparisons of the code: the western edge of a column to the east and the eastern edge
of a column to the west with the maximum distance.
-/
def distanceComparisons : Comparisons where
  tooFarEast cell :=
    decide
      (settings.maxDistance
        < settings.approxDistanceLongitude origin.place.latitude origin.place.longitude
            (cell.longitudeIndex / settings.resolution - 180))
  tooFarWest cell :=
    decide
      (settings.maxDistance
        < settings.approxDistanceLongitude origin.place.latitude origin.place.longitude
            ((cell.longitudeIndex + 1) / settings.resolution - 180))

/-- The code's walks are those with its comparisons. -/
theorem getNearbyCells_eq_walkNeighbours
    : settings.getNearbyCells origin
      = settings.walkNeighbours (settings.distanceComparisons origin) origin := rfl

end Walks

-----------------------------------------------------------------------------------------
-- Along a row
-----------------------------------------------------------------------------------------

variable {settings : PrototypeSettings} {comparisons : Comparisons} {origin : Origin}

/-- Too far from the origin is a quarter of the globe or more away, in either direction: one of
the two unsigned differences is the distance, and the other is huge.
-/
theorem isTooFarFromOrigin_iff {cell : CellLocator}
    (column : origin.cell.longitudeIndex ≤ 360 * settings.resolution)
    (inside : cell.longitudeIndex ≤ 360 * settings.resolution)
    : settings.isTooFarFromOrigin origin cell = true
      ↔ origin.cell.longitudeIndex + 90 * settings.resolution ≤ cell.longitudeIndex
        ∨ cell.longitudeIndex + 90 * settings.resolution ≤ origin.cell.longitudeIndex := by
  have admitted := settings.resolutionAdmitted
  have positive := settings.resolutionPositive
  rw [isTooFarFromOrigin, decide_eq_true_eq]
  rcases lt_trichotomy origin.cell.longitudeIndex cell.longitudeIndex with west | same | east
  · rw [sizeSub_of_lt west (by omega), sizeSub_of_le west.le (by omega)]
    omega
  · rw [same, sizeSub_of_le le_rfl (by omega)]
    omega
  · rw [sizeSub_of_le east.le (by omega), sizeSub_of_lt east (by omega)]
    omega

section Paths

variable (settings origin)

/-- Where ticks east of the user's column lead: around the antimeridian to column zero. -/
def eastPath (row round : Nat) : CellLocator :=
  ⟨row,
    if origin.cell.longitudeIndex + 1 + round ≤ 360 * settings.resolution then
      origin.cell.longitudeIndex + 1 + round
    else
      0⟩

/-- Where ticks west of the user's column lead. -/
def westPath (row round : Nat) : CellLocator :=
  ⟨row,
    if round < origin.cell.longitudeIndex then
      origin.cell.longitudeIndex - 1 - round
    else
      360 * settings.resolution - 1⟩

/-- A walk east meets the antimeridian or the quarter of the globe. -/
def eastLength : Nat :=
  min (360 * settings.resolution - origin.cell.longitudeIndex) (90 * settings.resolution - 1)

def westLength : Nat := min origin.cell.longitudeIndex (90 * settings.resolution - 1)

variable (comparisons)

/-- The cells of a row that are visited to the east of the user's column. -/
def visitedEast (row : Nat) : List CellLocator :=
  visited (settings.stopsEast comparisons origin) (settings.eastPath origin row)
    (settings.eastLength origin)

def visitedWest (row : Nat) : List CellLocator :=
  visited (settings.stopsWest comparisons origin) (settings.westPath origin row)
    (settings.westLength origin)

def visitedSameLatitude (row : Nat) : List CellLocator :=
  settings.visitedEast comparisons origin row ++ settings.visitedWest comparisons origin row

end Paths

/-- Within the walk, a path's columns count up from the user's. -/
theorem eastPath_of_lt {row round : Nat} (below : round < settings.eastLength origin)
    : settings.eastPath origin row round = ⟨row, origin.cell.longitudeIndex + 1 + round⟩ := by
  unfold eastLength at below
  rw [eastPath, if_pos (by omega)]

theorem westPath_of_lt {row round : Nat} (below : round < settings.westLength origin)
    : settings.westPath origin row round = ⟨row, origin.cell.longitudeIndex - 1 - round⟩ := by
  unfold westLength at below
  rw [westPath, if_pos (by omega)]

/-- A walk east stops within a quarter of the globe: at the antimeridian the column becomes zero,
which then is far away.
-/
theorem stopsEast_eastLength (onMap : origin.OnMap settings) (row : Nat)
    : settings.stopsEast comparisons origin
        (settings.eastPath origin row (settings.eastLength origin))
      = true := by
  have positive := settings.resolutionPositive
  have column := onMap.column
  refine if_pos ((isTooFarFromOrigin_iff column ?_).mpr ?_)
  · unfold eastPath
    dsimp only
    split <;> omega
  · unfold eastPath eastLength
    dsimp only
    split <;> omega

/-- A walk west stops within a quarter of the globe, likewise. -/
theorem stopsWest_westLength (onMap : origin.OnMap settings) (row : Nat)
    : settings.stopsWest comparisons origin
        (settings.westPath origin row (settings.westLength origin))
      = true := by
  have positive := settings.resolutionPositive
  have column := onMap.column
  refine if_pos ((isTooFarFromOrigin_iff column ?_).mpr ?_)
  · unfold westPath
    dsimp only
    split <;> omega
  · unfold westPath westLength
    dsimp only
    split <;> omega

/-- Both walks along a row end, and push the cells visited in that order. -/
theorem walkSameLatitude_eq (onMap : origin.OnMap settings) (row : Nat)
    (cells : List CellLocator)
    : settings.walkSameLatitude comparisons origin ⟨row, origin.cell.longitudeIndex⟩ cells
      = some (cells ++ settings.visitedSameLatitude comparisons origin row) := by
  have positive := settings.resolutionPositive
  have column := onMap.column
  have east (cells : List CellLocator)
      : walk settings.tickEast (settings.stopsEast comparisons origin) pushBack
          settings.walkFuel (settings.eastPath origin row 0) cells
        = some (cells ++ (settings.visitedEast comparisons origin row).flatMap ([·])) := by
    refine walk_eq (fun round below => ?_) (stopsEast_eastLength onMap row)
      (fun _ _ _ => rfl) ?_
    · unfold eastLength at below
      simp only [eastPath, tickEast, CellLocator.mk.injEq, true_and]
      split <;> split <;> split <;> omega
    · unfold eastLength walkFuel
      omega
  have west (cells : List CellLocator)
      : walk settings.tickWest (settings.stopsWest comparisons origin) pushBack
          settings.walkFuel (settings.westPath origin row 0) cells
        = some (cells ++ (settings.visitedWest comparisons origin row).flatMap ([·])) := by
    refine walk_eq (fun round below => ?_) (stopsWest_westLength onMap row)
      (fun _ _ _ => rfl) ?_
    · unfold westLength at below
      simp only [westPath, tickWest, CellLocator.mk.injEq, true_and]
      split <;> split <;> split <;> omega
    · unfold westLength walkFuel
      omega
  have eastStart : settings.tickEast ⟨row, origin.cell.longitudeIndex⟩
      = settings.eastPath origin row 0 := by
    simp only [eastPath, tickEast, CellLocator.mk.injEq, true_and]
    split <;> split <;> omega
  have westStart : settings.tickWest ⟨row, origin.cell.longitudeIndex⟩
      = settings.westPath origin row 0 := by
    simp only [westPath, tickWest, CellLocator.mk.injEq, true_and]
    split <;> split <;> omega
  rw [walkSameLatitude, eastStart, westStart, east]
  simp [west, visitedSameLatitude]

/-- East of the user's column, as far as the antimeridian and for less than a quarter of the
globe.
-/
theorem bounds_of_mem_visitedEast {row : Nat} {cell : CellLocator}
    (member : cell ∈ settings.visitedEast comparisons origin row)
    : cell.latitudeIndex = row
      ∧ origin.cell.longitudeIndex < cell.longitudeIndex
      ∧ cell.longitudeIndex ≤ 360 * settings.resolution
      ∧ cell.longitudeIndex < origin.cell.longitudeIndex + 90 * settings.resolution := by
  obtain ⟨round, below, rfl, _⟩ := mem_visited.mp member
  rw [eastPath_of_lt below]
  unfold eastLength at below
  refine ⟨rfl, ?_, ?_, ?_⟩
  all_goals
    dsimp only
    omega

/-- West of the user's column, likewise. -/
theorem bounds_of_mem_visitedWest {row : Nat} {cell : CellLocator}
    (member : cell ∈ settings.visitedWest comparisons origin row)
    : cell.latitudeIndex = row
      ∧ cell.longitudeIndex < origin.cell.longitudeIndex
      ∧ origin.cell.longitudeIndex < cell.longitudeIndex + 90 * settings.resolution := by
  obtain ⟨round, below, rfl, _⟩ := mem_visited.mp member
  rw [westPath_of_lt below]
  unfold westLength at below
  refine ⟨rfl, ?_, ?_⟩
  all_goals
    dsimp only
    omega

/-- A row visited off the user's column stays a row and never comes back to the column. -/
theorem bounds_of_mem_visitedSameLatitude (onMap : origin.OnMap settings) {row : Nat}
    {cell : CellLocator} (member : cell ∈ settings.visitedSameLatitude comparisons origin row)
    : cell.latitudeIndex = row
      ∧ cell.longitudeIndex ≠ origin.cell.longitudeIndex
      ∧ cell.longitudeIndex ≤ 360 * settings.resolution
      ∧ cell.longitudeIndex < origin.cell.longitudeIndex + 90 * settings.resolution
      ∧ origin.cell.longitudeIndex < cell.longitudeIndex + 90 * settings.resolution := by
  have positive := settings.resolutionPositive
  have column := onMap.column
  rcases List.mem_append.mp member with east | west
  · obtain ⟨same, after, inside, quarter⟩ := bounds_of_mem_visitedEast east
    exact ⟨same, after.ne', inside, quarter, by omega⟩
  · obtain ⟨same, before, quarter⟩ := bounds_of_mem_visitedWest west
    exact ⟨same, before.ne, by omega, by omega, quarter⟩

/-- A row's cells are visited once each: east and west of the user's column are apart. -/
theorem visitedSameLatitude_nodup (row : Nat)
    : (settings.visitedSameLatitude comparisons origin row).Nodup := by
  refine List.nodup_append.mpr ⟨visited_nodup ?_, visited_nodup ?_, ?_⟩
  · intro left leftBelow right rightBelow same
    rw [eastPath_of_lt leftBelow, eastPath_of_lt rightBelow, CellLocator.mk.injEq] at same
    omega
  · intro left leftBelow right rightBelow same
    rw [westPath_of_lt leftBelow, westPath_of_lt rightBelow, CellLocator.mk.injEq] at same
    unfold westLength at leftBelow rightBelow
    omega
  · intro left leftMember right rightMember same
    have east := (bounds_of_mem_visitedEast leftMember).2.1
    have west := (bounds_of_mem_visitedWest rightMember).2.1
    rw [same] at east
    omega

-----------------------------------------------------------------------------------------
-- From row to row
-----------------------------------------------------------------------------------------

section Paths

variable (settings origin)

/-- Where ticks north of the user's row lead. -/
def northPath (round : Nat) : CellLocator :=
  ⟨origin.cell.latitudeIndex + 1 + round, origin.cell.longitudeIndex⟩

/-- Where ticks south of the user's row lead: from the lowest row, below zero. -/
def southPath (round : Nat) : CellLocator :=
  ⟨sizeSub origin.cell.latitudeIndex (round + 1), origin.cell.longitudeIndex⟩

def northLength : Nat := 180 * settings.resolution - (origin.cell.latitudeIndex + 1)

def southLength : Nat := origin.cell.latitudeIndex - 1

/-- The cells of the user's column at which the walk north looks along a row. -/
def northRows : List CellLocator :=
  visited (settings.isTooFarNorth origin) (northPath origin) (settings.northLength origin)

def southRows : List CellLocator :=
  visited (settings.isTooFarSouth origin) (southPath origin) (southLength origin)

variable (comparisons)

/-- The cells of the walks in order: the user's row, the rows to the north with the user's
column, and the rows to the south without it.
-/
def visitedNeighbours : List CellLocator :=
  settings.visitedSameLatitude comparisons origin origin.cell.latitudeIndex
  ++ (settings.northRows origin).flatMap
      (fun cell =>
        cell :: settings.visitedSameLatitude comparisons origin cell.latitudeIndex)
  ++ (settings.southRows origin).flatMap
      (fun cell => settings.visitedSameLatitude comparisons origin cell.latitudeIndex)

end Paths

theorem southPath_latitudeIndex (round : Nat)
    : (southPath origin round).latitudeIndex
      = sizeSub origin.cell.latitudeIndex (round + 1) := rfl

theorem southPath_of_lt (onMap : origin.OnMap settings) {round : Nat}
    (below : round < southLength origin)
    : southPath origin round
      = ⟨origin.cell.latitudeIndex - (round + 1), origin.cell.longitudeIndex⟩ := by
  have admitted := settings.resolutionAdmitted
  have row := onMap.row
  unfold southLength at below
  rw [southPath, sizeSub_of_le (by omega) (by omega)]

/-- The walk north stops at the Pole at the latest. -/
theorem isTooFarNorth_northLength (origin : Origin)
    : settings.isTooFarNorth origin (northPath origin (settings.northLength origin)) = true := by
  refine if_pos ?_
  unfold northPath northLength
  dsimp only
  omega

/-- The row that ticking south of the lowest row gives is too far for any maximum distance. -/
theorem isTooFarSouth_wrapped (onMap : origin.OnMap settings) {cell : CellLocator}
    (wrapped : cell.latitudeIndex = 2 ^ 64 - 1)
    : settings.isTooFarSouth origin cell = true := by
  have resolution : (settings.resolution : ℚ) ≤ 100 := by
    exact_mod_cast settings.resolutionAdmitted
  have positive : (0 : ℚ) < settings.resolution := by exact_mod_cast settings.resolutionPositive
  have small : (settings.maxDistance : ℚ) < 1000 := by exact_mod_cast settings.maxDistanceAdmitted
  have edge : (2 ^ 64 / 100 : ℚ) ≤ 2 ^ 64 / settings.resolution := by gcongr
  have north := onMap.north
  rw [isTooFarSouth, if_neg (by omega), wrapped]
  refine decide_eq_true (lt_of_lt_of_le ?_ (le_abs_self _))
  push_cast
  linarith

/-- The walk south stops at the lowest row at the latest. -/
theorem isTooFarSouth_southLength (onMap : origin.OnMap settings)
    : settings.isTooFarSouth origin (southPath origin (southLength origin)) = true := by
  have admitted := settings.resolutionAdmitted
  have row := onMap.row
  by_cases lowest : origin.cell.latitudeIndex = 0
  · have wrapped : (southPath origin (southLength origin)).latitudeIndex = 2 ^ 64 - 1 := by
      rw [southPath_latitudeIndex, southLength, sizeSub_of_lt (by omega) (by omega)]
      omega
    exact isTooFarSouth_wrapped onMap wrapped
  · have zero : (southPath origin (southLength origin)).latitudeIndex = 0 := by
      rw [southPath_latitudeIndex, southLength, sizeSub_of_le (by omega) (by omega)]
      omega
    rw [isTooFarSouth, if_pos zero]

/-- The walk north ends, and pushes each of its rows from the user's column on. -/
theorem walk_north_eq (onMap : origin.OnMap settings) (cells : List CellLocator)
    : walk tickNorth (settings.isTooFarNorth origin)
        (fun cell cells => settings.walkSameLatitude comparisons origin cell (cells ++ [cell]))
        settings.walkFuel (tickNorth origin.cell) cells
      = some
        (cells
          ++ (settings.northRows origin).flatMap
              (fun cell => cell :: settings.visitedSameLatitude comparisons origin cell.latitudeIndex)) := by
  have admitted := settings.resolutionAdmitted
  have row := onMap.row
  have start : tickNorth origin.cell = northPath origin 0 := by
    simp only [northPath, tickNorth, CellLocator.mk.injEq, and_true]
    omega
  rw [start]
  refine walk_eq (fun round below => ?_) (isTooFarNorth_northLength origin)
    (fun round below cells => ?_) ?_
  · unfold northLength at below
    simp only [northPath, tickNorth, CellLocator.mk.injEq, and_true]
    omega
  · rw [northPath, walkSameLatitude_eq onMap, List.append_assoc]
    rfl
  · unfold northLength walkFuel
    omega

/-- The walk south ends, and pushes each of its rows but for the user's column. -/
theorem walk_south_eq (onMap : origin.OnMap settings) (cells : List CellLocator)
    : walk tickSouth (settings.isTooFarSouth origin)
        (fun cell cells => settings.walkSameLatitude comparisons origin cell cells)
        settings.walkFuel (tickSouth origin.cell) cells
      = some
        (cells
          ++ (settings.southRows origin).flatMap
              (fun cell => settings.visitedSameLatitude comparisons origin cell.latitudeIndex)) := by
  have admitted := settings.resolutionAdmitted
  have row := onMap.row
  have start : tickSouth origin.cell = southPath origin 0 := by
    rw [tickSouth, southPath, Nat.zero_add]
  rw [start]
  refine walk_eq (fun round below => ?_) (isTooFarSouth_southLength onMap)
    (fun round below cells => ?_) ?_
  · have tick : sizeSub (origin.cell.latitudeIndex - (round + 1)) 1
        = origin.cell.latitudeIndex - (round + 1) - 1 := by
      unfold southLength at below
      exact sizeSub_of_le (by omega) (by omega)
    have next : sizeSub origin.cell.latitudeIndex (round + 1 + 1)
        = origin.cell.latitudeIndex - (round + 1) - 1 := by
      unfold southLength at below
      rw [sizeSub_of_le (by omega) (by omega), Nat.sub_sub]
    rw [southPath_of_lt onMap below, southPath, next, tickSouth, tick]
  · rw [southPath, walkSameLatitude_eq onMap]
  · unfold southLength walkFuel
    omega

/-- The walks around a user end, and push the visited cells in their order. -/
theorem walkNeighbours_eq (onMap : origin.OnMap settings)
    : settings.walkNeighbours comparisons origin
      = some (settings.visitedNeighbours comparisons origin) := by
  have own := @walkSameLatitude_eq _ comparisons _ onMap origin.cell.latitudeIndex []
  rw [walkNeighbours]
  simp only [own, walk_north_eq onMap, walk_south_eq onMap, Option.bind_eq_bind,
    Option.bind_some, visitedNeighbours, List.nil_append]

/-- The walk north stays in the user's column, short of the Pole. -/
theorem bounds_of_mem_northRows {cell : CellLocator} (member : cell ∈ settings.northRows origin)
    : cell.longitudeIndex = origin.cell.longitudeIndex
      ∧ origin.cell.latitudeIndex < cell.latitudeIndex
      ∧ cell.latitudeIndex < 180 * settings.resolution := by
  obtain ⟨round, below, rfl, _⟩ := mem_visited.mp member
  unfold northLength at below
  unfold northPath
  refine ⟨rfl, ?_, ?_⟩
  all_goals
    dsimp only
    omega

/-- The walk south stays in the user's column, too. -/
theorem bounds_of_mem_southRows (onMap : origin.OnMap settings) {cell : CellLocator}
    (member : cell ∈ settings.southRows origin)
    : cell.longitudeIndex = origin.cell.longitudeIndex
      ∧ cell.latitudeIndex < origin.cell.latitudeIndex := by
  obtain ⟨round, below, rfl, _⟩ := mem_visited.mp member
  rw [southPath_of_lt onMap below]
  unfold southLength at below
  refine ⟨rfl, ?_⟩
  dsimp only
  omega

/-- Looking along distinct rows of one column visits no cell twice. -/
theorem rows_nodup {rows : List CellLocator} {visits : CellLocator → List CellLocator}
    {column : Nat} (distinct : rows.Nodup) (inColumn : ∀ row ∈ rows, row.longitudeIndex = column)
    (once : ∀ row ∈ rows, (visits row).Nodup)
    (inRow : ∀ row ∈ rows, ∀ cell ∈ visits row, cell.latitudeIndex = row.latitudeIndex)
    : (rows.flatMap visits).Nodup := by
  refine List.nodup_flatMap.mpr ⟨once, distinct.imp_of_mem ?_⟩
  intro left right leftMember rightMember different cell leftVisit rightVisit
  have sameRow : left.latitudeIndex = right.latitudeIndex :=
    (inRow left leftMember cell leftVisit).symm.trans (inRow right rightMember cell rightVisit)
  have sameColumn : left.longitudeIndex = right.longitudeIndex :=
    (inColumn left leftMember).trans (inColumn right rightMember).symm
  exact different ((CellLocator.mk.injEq _ _ _ _).mpr ⟨sameRow, sameColumn⟩)

/-- No row is visited twice on the walk north. -/
theorem northRows_nodup : (settings.northRows origin).Nodup := by
  refine visited_nodup (fun left _ right _ same => ?_)
  rw [northPath, northPath, CellLocator.mk.injEq] at same
  omega

theorem southRows_nodup (onMap : origin.OnMap settings) : (settings.southRows origin).Nodup := by
  refine visited_nodup (fun left leftBelow right rightBelow same => ?_)
  rw [southPath_of_lt onMap leftBelow, southPath_of_lt onMap rightBelow,
    CellLocator.mk.injEq] at same
  unfold southLength at leftBelow rightBelow
  omega

/-- Where the visited cells are: in the user's row, or to the north, or to the south. -/
theorem mem_visitedNeighbours {cell : CellLocator}
    : cell ∈ settings.visitedNeighbours comparisons origin
      ↔ cell ∈ settings.visitedSameLatitude comparisons origin origin.cell.latitudeIndex
        ∨ (∃ row ∈ settings.northRows origin,
            cell = row
            ∨ cell ∈ settings.visitedSameLatitude comparisons origin row.latitudeIndex)
        ∨ ∃ row ∈ settings.southRows origin,
            cell ∈ settings.visitedSameLatitude comparisons origin row.latitudeIndex := by
  simp only [visitedNeighbours, List.mem_append, List.mem_flatMap, List.mem_cons, or_assoc]

/-- No cell is visited twice: rows differ between rows, and columns within a row. -/
theorem visitedNeighbours_nodup (onMap : origin.OnMap settings)
    : (origin.cell :: settings.visitedNeighbours comparisons origin).Nodup := by
  have inRow {row : Nat} {cell : CellLocator}
      (member : cell ∈ settings.visitedSameLatitude comparisons origin row)
      : cell.latitudeIndex = row :=
    (bounds_of_mem_visitedSameLatitude onMap member).1
  have offColumn {row : Nat} {cell : CellLocator}
      (member : cell ∈ settings.visitedSameLatitude comparisons origin row)
      : cell.longitudeIndex ≠ origin.cell.longitudeIndex :=
    (bounds_of_mem_visitedSameLatitude onMap member).2.1
  have north : ((settings.northRows origin).flatMap
      (fun cell =>
        cell :: settings.visitedSameLatitude comparisons origin cell.latitudeIndex)).Nodup := by
    refine rows_nodup northRows_nodup
      (fun row member => (bounds_of_mem_northRows member).1) ?_ ?_
    · intro row member
      refine List.nodup_cons.mpr ⟨fun self => ?_, visitedSameLatitude_nodup _⟩
      exact offColumn self (bounds_of_mem_northRows member).1
    · intro row _ cell visit
      rcases List.mem_cons.mp visit with rfl | visit
      · rfl
      · exact inRow visit
  have south : ((settings.southRows origin).flatMap
      (fun cell =>
        settings.visitedSameLatitude comparisons origin cell.latitudeIndex)).Nodup :=
    rows_nodup (southRows_nodup onMap)
      (fun row member => (bounds_of_mem_southRows onMap member).1)
      (fun row _ => visitedSameLatitude_nodup _) (fun row _ cell visit => inRow visit)
  have northRow {cell : CellLocator}
      (member : cell ∈ (settings.northRows origin).flatMap
        (fun cell =>
          cell :: settings.visitedSameLatitude comparisons origin cell.latitudeIndex))
      : origin.cell.latitudeIndex < cell.latitudeIndex := by
    obtain ⟨row, inNorth, visit⟩ := List.mem_flatMap.mp member
    have above := (bounds_of_mem_northRows inNorth).2.1
    rcases List.mem_cons.mp visit with rfl | visit
    · exact above
    · exact inRow visit ▸ above
  have southRow {cell : CellLocator}
      (member : cell ∈ (settings.southRows origin).flatMap
        (fun cell => settings.visitedSameLatitude comparisons origin cell.latitudeIndex))
      : cell.latitudeIndex < origin.cell.latitudeIndex := by
    obtain ⟨row, inSouth, visit⟩ := List.mem_flatMap.mp member
    exact inRow visit ▸ (bounds_of_mem_southRows onMap inSouth).2
  rw [visitedNeighbours, List.nodup_cons, List.nodup_append, List.nodup_append,
    List.mem_append, List.mem_append]
  refine ⟨?_, ⟨visitedSameLatitude_nodup _, north, ?_⟩, south, ?_⟩
  · rintro ((self | self) | self)
    · exact offColumn self rfl
    · exact lt_irrefl _ (northRow self)
    · exact lt_irrefl _ (southRow self)
  · rintro left leftMember _ rightMember rfl
    exact (northRow rightMember).ne' (inRow leftMember)
  · rintro left leftMember _ rightMember rfl
    rcases List.mem_append.mp leftMember with leftMember | leftMember
    · exact (southRow rightMember).ne (inRow leftMember)
    · exact lt_asymm (northRow leftMember) (southRow rightMember)

/-- Visited cells are on the map, less than a quarter of the globe from the user's column. -/
theorem bounds_of_mem_visitedNeighbours (onMap : origin.OnMap settings) {cell : CellLocator}
    (member : cell ∈ settings.visitedNeighbours comparisons origin)
    : cell.latitudeIndex ≤ 180 * settings.resolution
      ∧ cell.longitudeIndex ≤ 360 * settings.resolution
      ∧ cell.longitudeIndex < origin.cell.longitudeIndex + 90 * settings.resolution
      ∧ origin.cell.longitudeIndex < cell.longitudeIndex + 90 * settings.resolution := by
  have positive := settings.resolutionPositive
  have ownRow := onMap.row
  have ownColumn := onMap.column
  rcases mem_visitedNeighbours.mp member with own | ⟨row, north, rfl | visit⟩ | ⟨row, south, visit⟩
  · obtain ⟨same, _, columns⟩ := bounds_of_mem_visitedSameLatitude onMap own
    exact ⟨same ▸ ownRow, columns⟩
  · obtain ⟨same, _, short⟩ := bounds_of_mem_northRows north
    exact ⟨short.le, by omega, by omega, by omega⟩
  · obtain ⟨same, _, columns⟩ := bounds_of_mem_visitedSameLatitude onMap visit
    exact ⟨same ▸ (bounds_of_mem_northRows north).2.2.le, columns⟩
  · obtain ⟨same, _, columns⟩ := bounds_of_mem_visitedSameLatitude onMap visit
    exact ⟨same ▸ ((bounds_of_mem_southRows onMap south).2.le.trans ownRow), columns⟩

/-- A valid position has a place and a cell of the map. -/
theorem locate_of_isValid {position : GeoPosition}
    (valid : position.isValid = true)
    : ∃ origin, settings.locate position = .ok origin ∧ origin.OnMap settings := by
  obtain ⟨row, rowBound, column, columnBound, located⟩
    := settings.toCellLocator_of_isValid valid
  obtain ⟨latitude, longitude, rfl, ⟨_, north⟩, _⟩ := GeoPosition.isValid_iff.mp valid
  refine ⟨⟨⟨latitude, longitude⟩, ⟨row * settings.resolution, column * settings.resolution⟩⟩,
    ?_, ?_, ?_, north⟩
  · rw [locate, GeoPosition.place?, located]
    rfl
  · exact Nat.mul_le_mul_right _ rowBound
  · exact Nat.mul_le_mul_right _ columnBound

/-- From every valid position and with any outcome of the comparisons along the rows the walks
end: they visit distinct cells other than the user's, all on the map and less than a quarter of
the globe from the user's column. The code's walks are among these.
-/
theorem neighbourWalks_end {position : GeoPosition} (valid : position.isValid = true)
    : ∃ origin,
        settings.locate position = .ok origin
        ∧ (∀ comparisons, ∃ cells,
            settings.walkNeighbours comparisons origin = some cells
            ∧ (origin.cell :: cells).Nodup
            ∧ ∀ cell ∈ cells,
              cell.latitudeIndex ≤ 180 * settings.resolution
              ∧ cell.longitudeIndex ≤ 360 * settings.resolution
              ∧ cell.longitudeIndex < origin.cell.longitudeIndex + 90 * settings.resolution
              ∧ origin.cell.longitudeIndex < cell.longitudeIndex + 90 * settings.resolution)
        ∧ settings.getNearbyCells origin
          = settings.walkNeighbours (settings.distanceComparisons origin) origin := by
  obtain ⟨origin, located, onMap⟩ := @locate_of_isValid settings _ valid
  refine ⟨origin, located, fun comparisons => ?_, settings.getNearbyCells_eq_walkNeighbours origin⟩
  exact ⟨settings.visitedNeighbours comparisons origin, walkNeighbours_eq onMap,
    visitedNeighbours_nodup onMap, fun cell => bounds_of_mem_visitedNeighbours onMap⟩

end PrototypeSettings

/-- From the origin of the map, however the distances compare. -/
theorem neighbourWalks_end_island
    : ∃ origin,
        shortRange.locate nullIsland = .ok origin
        ∧ (∀ comparisons, ∃ cells,
            shortRange.walkNeighbours comparisons origin = some cells
            ∧ (origin.cell :: cells).Nodup
            ∧ ∀ cell ∈ cells,
              cell.latitudeIndex ≤ 180 * shortRange.resolution
              ∧ cell.longitudeIndex ≤ 360 * shortRange.resolution
              ∧ cell.longitudeIndex < origin.cell.longitudeIndex + 90 * shortRange.resolution
              ∧ origin.cell.longitudeIndex < cell.longitudeIndex + 90 * shortRange.resolution)
        ∧ shortRange.getNearbyCells origin
          = shortRange.walkNeighbours (shortRange.distanceComparisons origin) origin :=
  PrototypeSettings.neighbourWalks_end nullIsland_isValid

end PplMe.Engine

import PplMe.Engine.SlurpedRecords
import PplMe.Engine.PplmeCells
import PplMe.Engine.FindsOnGrid

/-! What becomes of a file whose records are added to a matching provider.
The slurper accepts any coordinates, and the provider's checks end the process, or take a
position just off the map to lie at its border.
-/

namespace PplMe.Engine

open PplMe.Core Failures Floats InputStreams Stream

section Repositories

variable {Repository : Type} (readers : Readers)
  (addPerson : Repository → Person → Except Fault Repository)

/-- The slurper's loop over a repository, with whether it succeeds and what the repository
holds by then; there is no result where `fuel` rounds do not end it, and an addition may end the
process.
-/
def populateRepoFrom : Nat → Stream → Repository → Option (Except Fault (Bool × Repository))
  | 0, _, _ => none
  | fuel + 1, csvFile, pplRepo =>
      if csvFile.fail then
        some (.ok (csvFile.eof, pplRepo))
      else
        match readRecord readers csvFile with
        | .stopped error csvFile => some (.ok (error.isNone && csvFile.eof, pplRepo))
        | .added person csvFile =>
            match addPerson pplRepo person with
            | .error fault => some (.error fault)
            | .ok pplRepo => populateRepoFrom fuel csvFile pplRepo

/-- `Populate` with the text of a file. -/
def populateRepo (text : List UInt8) (pplRepo : Repository)
    : Option (Except Fault (Bool × Repository)) :=
  populateRepoFrom readers addPerson (text.length + 1) (opened text) pplRepo

variable {readers addPerson} {tail text : List UInt8} {records : List Fields}
  {people : List Person}

/-- The loop adds the people of the records one after the other, unless an addition ends the
process, by induction over the records.
-/
theorem Records.populateRepoFrom (read : Records readers tail records people text) (fuel : Nat)
    (pplRepo : Repository)
    : populateRepoFrom readers addPerson (fuel + people.length) (opened text) pplRepo
      = match people.foldlM addPerson pplRepo with
        | .error fault => some (.error fault)
        | .ok pplRepo =>
            PplMe.Engine.populateRepoFrom readers addPerson fuel (opened tail) pplRepo := by
  induction read generalizing pplRepo with
  | nil => rfl
  | @cons fields records person people after read others ih =>
      have good : (opened (fields.before after)).fail = false := rfl
      rw [List.length_cons, ← Nat.add_assoc, PplMe.Engine.populateRepoFrom, good,
        readRecord_of_readAs read, List.foldlM_cons]
      cases added : addPerson pplRepo person with
      | error fault => simp [added, bind, Except.bind]
      | ok next => simp [added, ih, bind, Except.bind]

/-- Where no record can be read the loop ends, and succeeds only at the end of the file. -/
theorem populateRepoFrom_of_noRecord (last : NoRecord readers tail) (fuel : Nat)
    (pplRepo : Repository)
    : populateRepoFrom readers addPerson (fuel + 1) (opened tail) pplRepo
      = some (.ok (tail.isEmpty, pplRepo)) := by
  have good : (opened tail).fail = false := rfl
  rw [populateRepoFrom, good]
  rcases readRecord_cases readers tail with ⟨fields, person, after, same, read, _⟩
    | ⟨rfl, stopped⟩ | ⟨nonempty, error⟩
  · exact absurd read (last fields person after same)
  · simp [stopped]
  · cases ended : readRecord readers (opened tail) with
    | added person csvFile => simp [ended, Round.error] at error
    | stopped error' csvFile =>
        rw [ended, Round.error] at error
        simp [Option.isNone_eq_false_iff.mpr error, nonempty]

/-- `Populate` adds the people of the records, and then succeeds if they are all there is. -/
theorem populateRepo_eq (read : Records readers tail records people text)
    (last : NoRecord readers tail) (pplRepo : Repository)
    : populateRepo readers addPerson text pplRepo
      = some
        ((people.foldlM addPerson pplRepo).map (fun pplRepo => (tail.isEmpty, pplRepo))) := by
  obtain ⟨fuel, enough⟩ := Nat.exists_eq_add_of_le read.length_le
  have rounds : text.length + 1 = fuel + 1 + people.length := by omega
  rw [populateRepo, rounds, read.populateRepoFrom]
  cases people.foldlM addPerson pplRepo with
  | error fault => rfl
  | ok pplRepo => exact populateRepoFrom_of_noRecord last fuel pplRepo

end Repositories

namespace Settings

variable {settings : Settings} {people : List Person} {grid next : PplGrid} {person : Person}

/-- Whoever can be added is stored in the cell their home is taken to lie in. -/
theorem Populated.of_addPerson (populated : settings.Populated people grid)
    (added : settings.addPerson grid person = .ok next)
    : settings.Populated (people ++ [person]) next
      ∧ (settings.homeIndex person).isSome = true := by
  obtain ⟨cell, located, stored⟩ := of_bind_eq_ok added
  have home : settings.homeIndex person = some (settings.getPplIndex cell) := by
    rw [homeIndex, located]
    rfl
  refine ⟨?_, Option.isSome_of_eq_some home⟩
  obtain ⟨_, accessed, _⟩ := of_bind_eq_ok stored
  have inside : settings.getPplIndex cell < grid.size := by
    unfold PplGrid.at at accessed
    split at accessed
    · assumption
    · cases accessed
  obtain ⟨other, same, size, holds⟩ := populated.addPersonAt home inside
  cases stored.symm.trans same
  exact ⟨holds, size.trans populated.size⟩

/-- Additions that all succeed store everybody, by induction over them. -/
theorem Populated.of_foldlM {more : List Person} (populated : settings.Populated people grid)
    (run : more.foldlM settings.addPerson grid = .ok next)
    : settings.Populated (people ++ more) next
      ∧ ∀ person ∈ more, (settings.homeIndex person).isSome = true := by
  induction more generalizing people grid with
  | nil =>
      cases run
      exact ⟨by simpa using populated, by simp⟩
  | cons person rest ih =>
      rw [List.foldlM_cons] at run
      obtain ⟨middle, added, later⟩ := of_bind_eq_ok run
      obtain ⟨stored, home⟩ := populated.of_addPerson added
      obtain ⟨all, homes⟩ := ih stored later
      exact ⟨by simpa using all, List.forall_mem_cons.mpr ⟨home, homes⟩⟩

/-- A grid does not hold both some people and more people than these. -/
theorem Populated.not_more {before after : List Person}
    (populated : settings.Populated before grid)
    (home : (settings.homeIndex person).isSome = true)
    : ¬settings.Populated (before ++ person :: after) grid := by
  intro more
  obtain ⟨index, home⟩ := Option.isSome_iff_exists.mp home
  have sizes := (populated.contents index).symm.trans (more.contents index)
  have longer := sizes.length_eq
  rw [List.filter_append, List.length_append, List.filter_cons_of_pos (by simpa using home),
    List.length_cons] at longer
  omega

/-- Loading a file fails cleanly: it always returns, and where a record has a position off the
map it returns false and leaves the provider with the people of the records before that one.
-/
def FailsCleanly (settings : Settings) (readers : Readers) (text : List UInt8) : Prop :=
  ∃ success grid,
    populateRepo readers settings.addPerson text settings.emptyGrid
      = some (.ok (success, grid))
    ∧ ∀ records before person after tail,
      Records readers tail records (before ++ person :: after) text
      → NoRecord readers tail
      → (∀ earlier ∈ before, earlier.locationOfHome.isValid = true)
      → person.locationOfHome.isValid = false
      → success = false ∧ settings.Populated before grid

/-- Loading a file fails cleanly exactly if all records have positions on the map. -/
theorem failsCleanly_iff {readers : Readers} {text : List UInt8}
    : settings.FailsCleanly readers text
      ↔ ∀ records people tail,
        Records readers tail records people text
        → NoRecord readers tail
        → ∀ person ∈ people, person.locationOfHome.isValid = true := by
  constructor
  · rintro ⟨success, grid, loaded, cleanly⟩ records people tail read last
    cases invalid : people.find? (fun person => !person.locationOfHome.isValid) with
    | none => simpa using invalid
    | some first =>
        exfalso
        obtain ⟨off, before, after, rfl, earlier⟩ := List.find?_eq_some_iff_append.mp invalid
        have clean := cleanly records before first after tail read last
          (by simpa using earlier) (by simpa using off)
        -- The slurper has gone on past that record, so that everybody is stored.
        rw [populateRepo_eq read last, Option.some.injEq] at loaded
        cases run : (before ++ first :: after).foldlM settings.addPerson settings.emptyGrid with
        | error fault => simp [run, Except.map] at loaded
        | ok final =>
            rw [run] at loaded
            cases loaded
            obtain ⟨all, homes⟩ := populated_emptyGrid.of_foldlM run
            exact clean.2.not_more (homes first (by simp)) all
  · intro valid
    obtain ⟨records, people, tail, read, last⟩ := exists_records readers text
    obtain ⟨grid, populates, _⟩ := populate_of_isValid (valid records people tail read last)
    refine ⟨tail.isEmpty, grid, ?_, ?_⟩
    · rw [populateRepo_eq read last]
      exact congrArg _ (congrArg _ populates)
    · intro records before person after tail read last _ off
      have on := valid _ _ tail read last person (by simp)
      cases on.symm.trans off

end Settings

/-- Readers that know one coordinate, and a line with it as latitude and as longitude. -/
def coordinateReaders (coordinate : List UInt8) (value : FloatValue) : Readers :=
  { sampleReaders with coordinate := readerOf coordinate value }

def coordinateLine (coordinate : List UInt8) : List UInt8 :=
  { sampleRendering with coordinate := fun _ => coordinate }.line sample

/-- Somebody whose latitude is `90.5` is stored and the file accepted, and a latitude of `91`
ends the process.
-/
theorem failsCleanly_fails
    : ¬smallSettings.FailsCleanly (coordinateReaders [57, 48, 46, 53] (.finite (181 / 2)))
          (coordinateLine [57, 48, 46, 53])
      ∧ populateRepo (coordinateReaders [57, 49] (.finite 91)) smallSettings.addPerson
          (coordinateLine [57, 49]) smallSettings.emptyGrid
        = some (.error .latitudeCheck)
      ∧ ¬smallSettings.FailsCleanly (coordinateReaders [57, 49] (.finite 91))
          (coordinateLine [57, 49]) := by
  have accepted
      : (populateRepo (coordinateReaders [57, 48, 46, 53] (.finite (181 / 2)))
            smallSettings.addPerson (coordinateLine [57, 48, 46, 53])
            smallSettings.emptyGrid).map (fun loaded => loaded.map Prod.fst)
        = some (.ok true) := by
    decide +kernel
  have refused
      : (populateRepo (coordinateReaders [57, 49] (.finite 91)) smallSettings.addPerson
            (coordinateLine [57, 49]) smallSettings.emptyGrid).map
          (fun loaded => loaded.map Prod.fst)
        = some (.error .latitudeCheck) := by
    decide +kernel
  refine ⟨?_, ?_, ?_⟩
  · rintro ⟨success, grid, loaded, cleanly⟩
    let person : Person :=
      { sample with locationOfHome := ⟨.finite (181 / 2), .finite (181 / 2)⟩ }
    have readBack : (coordinateReaders [57, 48, 46, 53] (.finite (181 / 2))).ReadBack
        { sampleRendering with coordinate := fun _ => [57, 48, 46, 53] } person :=
      ⟨⟨by decide, by simp [coordinateReaders, sampleReaders, person]⟩,
        stopsAfter_readerOf _ ⟨_, _, rfl, rfl⟩, stopsAfter_readerOf _ ⟨_, _, rfl, rfl⟩,
        stopsAfter_readerOf _ ⟨_, _, rfl, rfl⟩⟩
    have read : Records _ [] _ [person] (coordinateLine [57, 48, 46, 53]) :=
      .cons (readAs_of_readBack readBack (by decide) []) .nil
    have clean := cleanly _ [] person [] [] read noRecord_nil (by simp) (by decide +kernel)
    rw [loaded, clean.1] at accepted
    cases accepted
  · obtain ⟨loaded, same, fault⟩ := Option.map_eq_some_iff.mp refused
    cases loaded with
    | error other =>
        cases fault
        exact same
    | ok loaded => cases fault
  · rintro ⟨success, grid, loaded, _⟩
    rw [loaded] at refused
    cases refused

end PplMe.Engine

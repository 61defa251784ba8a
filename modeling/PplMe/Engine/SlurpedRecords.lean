import PplMe.Engine.PplSlurper
import Mathlib.Algebra.BigOperators.Group.List.Basic

/-! What the slurper makes of a whole file.
The loop reads records one after the other until no further one can be read, and succeeds if
nothing is left then. Lines in the documented format are read back as the people they were
written for; but a record may also go on over a line break.
-/

namespace PplMe.Engine

open PplMe.Core Floats InputStreams Stream

-----------------------------------------------------------------------------------------
-- Files as records
-----------------------------------------------------------------------------------------

/-- Records one after the other in front of a tail, and the people that are read from them. -/
inductive Records (readers : Readers) (tail : List UInt8)
    : List Fields → List Person → List UInt8 → Prop
  | nil : Records readers tail [] [] tail
  | cons {fields records person people after} (read : Fields.ReadAs fields readers person after)
    (others : Records readers tail records people after)
    : Records readers tail (fields :: records) (person :: people) (fields.before after)

/-- No record can be read from a tail. -/
def NoRecord (readers : Readers) (tail : List UInt8) : Prop :=
  ∀ (fields : Fields) (person : Person) (after : List UInt8),
    tail = fields.before after → ¬ fields.ReadAs readers person after

section Files

variable {readers : Readers} {tail text : List UInt8} {records : List Fields}
  {people : List Person}

/-- A record is at least as long as its separators. -/
theorem Fields.length_before (fields : Fields) (after : List UInt8)
    : after.length < (fields.before after).length := by
  simp only [Fields.before, List.length_append, List.length_cons]
  omega

/-- Every file is some records and a tail from which no further one can be read, by induction
on its length.
-/
theorem exists_records (readers : Readers) (text : List UInt8)
    : ∃ records people tail, Records readers tail records people text
        ∧ NoRecord readers tail := by
  by_cases none : NoRecord readers text
  · exact ⟨[], [], text, .nil, none⟩
  · simp only [NoRecord, not_forall, not_not] at none
    obtain ⟨fields, person, after, rfl, read⟩ := none
    obtain ⟨records, people, tail, others, last⟩ := exists_records readers after
    exact ⟨fields :: records, person :: people, tail, .cons read others, last⟩
termination_by text.length
decreasing_by
  subst_vars
  exact fields.length_before after

/-- A file is its records' texts and the tail, by induction over the records. -/
theorem Records.text_eq (read : Records readers tail records people text)
    : text = records.flatMap Fields.text ++ tail := by
  induction read with
  | nil => rfl
  | cons read others ih => rw [Fields.before_eq, ih, List.flatMap_cons, List.append_assoc]

theorem Records.length_le (read : Records readers tail records people text)
    : people.length ≤ text.length := by
  induction read with
  | nil => exact Nat.zero_le _
  | @cons fields records person people after read others ih =>
      have longer := fields.length_before after
      rw [List.length_cons]
      omega

-----------------------------------------------------------------------------------------
-- The loop over a file
-----------------------------------------------------------------------------------------

/-- The loop adds the people of the records one after the other, by induction over them. -/
theorem Records.populateFrom (read : Records readers tail records people text) (fuel : Nat)
    (ppl : List Person)
    : populateFrom readers (fuel + people.length) (opened text) ppl
      = PplMe.Engine.populateFrom readers fuel (opened tail) (ppl ++ people) := by
  induction read generalizing ppl with
  | nil => rw [List.append_nil, List.length_nil, Nat.add_zero]
  | @cons fields records person people after read others ih =>
      have good : (opened (fields.before after)).fail = false := rfl
      rw [List.length_cons, ← Nat.add_assoc, PplMe.Engine.populateFrom, good,
        readRecord_of_readAs read]
      simp only [Bool.false_eq_true, if_false, ih, List.append_assoc, List.singleton_append]

/-- Where no record can be read the loop ends, and succeeds only at the end of the file. -/
theorem populateFrom_of_noRecord (last : NoRecord readers tail) (fuel : Nat)
    (ppl : List Person)
    : populateFrom readers (fuel + 1) (opened tail) ppl = some (tail.isEmpty, ppl) := by
  have good : (opened tail).fail = false := rfl
  rw [populateFrom, good]
  rcases readRecord_cases readers tail with ⟨fields, person, after, same, read, _⟩
    | ⟨rfl, stopped⟩ | ⟨nonempty, error⟩
  · exact absurd read (last fields person after same)
  · simp [stopped]
  · cases ended : readRecord readers (opened tail) with
    | added person csvFile => simp [ended, Round.error] at error
    | stopped error' csvFile =>
        rw [ended, Round.error] at error
        simp [Option.isNone_eq_false_iff.mpr error, nonempty]

/-- `Populate` ends with the people of the records added, and succeeds if they are all there
is.
-/
theorem populate_eq (read : Records readers tail records people text)
    (last : NoRecord readers tail)
    : populate readers (some text) = some (tail.isEmpty, people) := by
  obtain ⟨fuel, enough⟩ := Nat.exists_eq_add_of_le read.length_le
  have rounds : text.length + 1 = fuel + 1 + people.length := by omega
  rw [populate, rounds, read.populateFrom, populateFrom_of_noRecord last, List.nil_append]

end Files

-----------------------------------------------------------------------------------------
-- Lines in the documented format
-----------------------------------------------------------------------------------------

/-- How ids, dates and coordinates are written. -/
structure Rendering where
  uuid : PersonId → List UInt8
  date : Date → List UInt8
  coordinate : FloatValue → List UInt8

/-- A person's fields in a line of the format. -/
def Rendering.fields (rendering : Rendering) (person : Person) : Fields where
  id := rendering.uuid person.id
  name := person.name
  dateOfBirth := rendering.date person.dateOfBirth
  latitude := rendering.coordinate person.locationOfHome.latitude
  longitude := rendering.coordinate person.locationOfHome.longitude

/-- `<id>,<name>,<dob>,<latitude>,<longitude>` and the end of the line. -/
def Rendering.line (rendering : Rendering) (person : Person) : List UInt8 :=
  (rendering.fields person).text

/-- A reader has a value for a text, and stops at a comma or the end of the line after it. -/
structure StopsAfter {α : Type*} (reader : Reader α) (text : List UInt8) (value : α) : Prop where
  solid : ∃ first more, text = first :: more ∧ isSpace first = false
  reads
    : ∀ separator,
        separator = comma ∨ separator = newline
        → ∀ rest, reader (text ++ separator :: rest) = ⟨some value, text.length, false⟩

/-- The readers read what was written for a person. -/
structure Readers.ReadBack (readers : Readers) (rendering : Rendering) (person : Person)
    : Prop where
  id
    : comma ∉ rendering.uuid person.id
      ∧ readers.uuid (rendering.uuid person.id) = some person.id
  dateOfBirth
    : StopsAfter readers.date (rendering.date person.dateOfBirth) person.dateOfBirth
  latitude
    : StopsAfter readers.coordinate (rendering.coordinate person.locationOfHome.latitude)
        person.locationOfHome.latitude
  longitude
    : StopsAfter readers.coordinate (rendering.coordinate person.locationOfHome.longitude)
        person.locationOfHome.longitude

section Lines

variable {readers : Readers} {rendering : Rendering}

/-- Such a text can be extracted from a stream. -/
theorem StopsAfter.extracts {α : Type*} {reader : Reader α} {text rest : List UInt8} {value : α}
    {separator : UInt8} (stops : StopsAfter reader text value)
    (separating : separator = comma ∨ separator = newline)
    : Extracts reader text value (separator :: rest) := by
  obtain ⟨first, more, rfl, solid⟩ := stops.solid
  have read := stops.reads separator separating rest
  refine ⟨[], first :: more, rfl, nofun, ⟨first, _, rfl, solid⟩, ?_, ?_, ?_⟩
  · rw [read]
  · rw [read]
  · rw [read]
    exact List.drop_left

/-- A line in front of the rest of a file is read as its person. -/
theorem readAs_of_readBack {person : Person} (readBack : readers.ReadBack rendering person)
    (name : comma ∉ person.name) (after : List UInt8)
    : (rendering.fields person).ReadAs readers person after where
  id := readBack.id
  name := ⟨name, rfl⟩
  dateOfBirth := readBack.dateOfBirth.extracts (Or.inl rfl)
  latitude := readBack.latitude.extracts (Or.inl rfl)
  longitude := readBack.longitude.extracts (Or.inr rfl)

/-- Lines in front of a tail are records of their people, by induction over them. -/
theorem records_of_lines {people : List Person}
    (readBack : ∀ person ∈ people, readers.ReadBack rendering person)
    (names : ∀ person ∈ people, comma ∉ person.name) (tail : List UInt8)
    : Records readers tail (people.map rendering.fields) people
        (people.flatMap rendering.line ++ tail) := by
  induction people with
  | nil => exact .nil
  | cons person others ih =>
      have first := readAs_of_readBack (readBack person List.mem_cons_self)
        (names person List.mem_cons_self) (others.flatMap rendering.line ++ tail)
      have rest := ih (fun person member => readBack person (List.mem_cons_of_mem _ member))
        (fun person member => names person (List.mem_cons_of_mem _ member))
      have read := Records.cons first rest
      rw [Fields.before_eq] at read
      rwa [List.flatMap_cons, List.append_assoc]

/-- Where nothing is left there is no record. -/
theorem noRecord_nil : NoRecord readers [] := by
  intro fields person after same
  have longer := fields.length_before after
  rw [← same] at longer
  exact absurd longer (Nat.not_lt_zero _)

/-- A file of lines is read back, one person a line and in their order. Where a tail follows
from which no further record can be read, the same people are added and `Populate` fails.
-/
theorem populate_lines {people : List Person}
    (readBack : ∀ person ∈ people, readers.ReadBack rendering person)
    (names : ∀ person ∈ people, comma ∉ person.name ∧ newline ∉ person.name)
    : populate readers (some (people.flatMap rendering.line)) = some (true, people)
      ∧ ∀ tail, tail ≠ [] → NoRecord readers tail
        → populate readers (some (people.flatMap rendering.line ++ tail))
          = some (false, people) := by
  have records := records_of_lines readBack (fun person member => (names person member).1)
  constructor
  · have read := populate_eq (records []) noRecord_nil
    rwa [List.append_nil] at read
  · intro tail nonempty last
    rw [populate_eq (records tail) last, List.isEmpty_eq_false_iff.mpr nonempty]

end Lines

/-- A reader of one text. -/
def readerOf {α : Type*} (text : List UInt8) (value : α) : Reader α := fun input =>
  if text.isPrefixOf input then
    ⟨some value, text.length, decide (input.length = text.length)⟩
  else
    ⟨none, 0, false⟩

/-- It stops after its text, whatever comes next. -/
theorem stopsAfter_readerOf {α : Type*} {text : List UInt8} (value : α)
    (solid : ∃ first more, text = first :: more ∧ isSpace first = false)
    : StopsAfter (readerOf text value) text value where
  solid := solid
  reads separator _ rest := by
    have found : text.isPrefixOf (text ++ separator :: rest) = true :=
      List.isPrefixOf_iff_prefix.mpr (List.prefix_append _ _)
    simp [readerOf, found]

/-- How one person is written: `11111111-1111-1111-1111-111111111111`, `1990-03-28`, `0`. -/
def sampleRendering : Rendering where
  uuid _ :=
    List.replicate 8 49 ++ 45 :: List.replicate 4 49 ++ 45 :: List.replicate 4 49
    ++ 45 :: List.replicate 4 49 ++ 45 :: List.replicate 12 49
  date _ := [49, 57, 57, 48, 45, 48, 51, 45, 50, 56]
  coordinate _ := [48]

/-- Somebody from the origin, whose name begins with a space. -/
def sample : Person where
  id := Vector.replicate 16 17
  name := [32, 65, 110, 110]
  dateOfBirth := ⟨1990, 3, 28, by decide⟩
  locationOfHome := ⟨.finite 0, .finite 0⟩

def sampleReaders : Readers where
  uuid text := if text = sampleRendering.uuid sample.id then some sample.id else none
  date := readerOf (sampleRendering.date sample.dateOfBirth) sample.dateOfBirth
  coordinate := readerOf (sampleRendering.coordinate (.finite 0)) (.finite 0)

/-- One line, read back. -/
theorem populate_lines_sample
    : populate sampleReaders (some ([sample].flatMap sampleRendering.line))
        = some (true, [sample])
      ∧ ∀ tail, tail ≠ [] → NoRecord sampleReaders tail
        → populate sampleReaders (some ([sample].flatMap sampleRendering.line ++ tail))
          = some (false, [sample]) := by
  refine populate_lines (fun person member => ?_) (fun person member => ?_)
  · cases List.mem_singleton.mp member
    exact ⟨⟨by decide, by simp [sampleReaders]⟩, stopsAfter_readerOf _ ⟨_, _, rfl, rfl⟩,
      stopsAfter_readerOf _ ⟨_, _, rfl, rfl⟩, stopsAfter_readerOf _ ⟨_, _, rfl, rfl⟩⟩
  · cases List.mem_singleton.mp member
    decide

-----------------------------------------------------------------------------------------
-- Records across line breaks
-----------------------------------------------------------------------------------------

/-- A file is physical lines, each of which is a person's record. -/
inductive PhysicalLines (readers : Readers) : List UInt8 → List Person → Prop
  | nil : PhysicalLines readers [] []
  | cons {line after person people} {fields : Fields} (physical : newline ∉ line)
    (whole : line ++ newline :: after = fields.before after)
    (read : fields.ReadAs readers person after) (others : PhysicalLines readers after people)
    : PhysicalLines readers (line ++ newline :: after) (person :: people)

/-- No line break stands in a field, nor among the white space in front of it. -/
structure Fields.OnOneLine (fields : Fields) : Prop where
  id : newline ∉ fields.id
  name : newline ∉ fields.name
  dateOfBirth : newline ∉ fields.dateOfBirth
  latitude : newline ∉ fields.latitude
  longitude : newline ∉ fields.longitude

section Breaks

variable {readers : Readers} {tail text : List UInt8} {records : List Fields}
  {people : List Person}

/-- A record has the line break at its end, and those of its fields. -/
theorem Fields.count_newline (fields : Fields)
    : fields.text.count newline
      = fields.id.count newline + fields.name.count newline
        + fields.dateOfBirth.count newline + fields.latitude.count newline
        + fields.longitude.count newline + 1 := by
  have other : comma ≠ newline := by decide
  simp only [Fields.text, Fields.before, List.count_append, List.count_cons_self,
    List.count_cons_of_ne other, List.count_nil]
  omega

theorem Fields.onOneLine_iff (fields : Fields)
    : fields.OnOneLine ↔ fields.text.count newline = 1 := by
  rw [fields.count_newline]
  constructor
  · intro ⟨id, name, dateOfBirth, latitude, longitude⟩
    simp only [List.count_eq_zero.mpr id, List.count_eq_zero.mpr name,
      List.count_eq_zero.mpr dateOfBirth, List.count_eq_zero.mpr latitude,
      List.count_eq_zero.mpr longitude]
  · intro one
    constructor
    all_goals
      apply List.count_eq_zero.mp
      omega

/-- The fields of a record on one line, and the line break at its end. -/
theorem Fields.exists_line (fields : Fields) : ∃ line, fields.text = line ++ [newline] := by
  refine ⟨fields.id ++ comma :: (fields.name ++ comma :: (fields.dateOfBirth
    ++ comma :: (fields.latitude ++ comma :: fields.longitude))), ?_⟩
  simp [Fields.text, Fields.before]

/-- Every record ends with a line break, by induction over the records. -/
theorem Records.length_le_count (read : Records readers tail records people text)
    : people.length ≤ text.count newline := by
  induction read with
  | nil => exact Nat.zero_le _
  | @cons fields records person people after read others ih =>
      rw [List.length_cons, Fields.before_eq, List.count_append, fields.count_newline]
      omega

/-- A file has as many line breaks as records only if no record has more than its own, by
induction over them.
-/
theorem Records.count_newline_iff (read : Records readers [] records people text)
    : people.length = text.count newline ↔ ∀ fields ∈ records, fields.OnOneLine := by
  induction read with
  | nil => simp
  | @cons fields records person people after read others ih =>
      have atLeast := others.length_le_count
      have own := fields.count_newline
      rw [List.forall_mem_cons, ← ih, fields.onOneLine_iff, List.length_cons, Fields.before_eq,
        List.count_append]
      omega

/-- Records on one line each are physical lines, by induction over them. -/
theorem Records.physicalLines (read : Records readers [] records people text)
    (onOneLine : ∀ fields ∈ records, fields.OnOneLine)
    : PhysicalLines readers text people := by
  induction read with
  | nil => exact .nil
  | @cons fields records person people after read others ih =>
      obtain ⟨line, whole⟩ := fields.exists_line
      have single := fields.onOneLine_iff.mp (onOneLine fields List.mem_cons_self)
      have physical : newline ∉ line := by
        rw [whole, List.count_append, List.count_singleton_self] at single
        exact List.count_eq_zero.mp (by omega)
      have split : line ++ newline :: after = fields.before after := by
        rw [Fields.before_eq, whole, List.append_assoc, List.singleton_append]
      rw [← split]
      exact .cons physical split read
        (ih (fun fields member => onOneLine fields (List.mem_cons_of_mem _ member)))

/-- What the slurper accepts is one record a physical line, and as many line breaks as people,
exactly where no record goes on over a line break.
-/
theorem populate_physicalLines_iff (readers : Readers) (text : List UInt8)
    : ∃ records people tail, Records readers tail records people text
        ∧ NoRecord readers tail
        ∧ ((∀ ppl, populate readers (some text) = some (true, ppl)
            → PhysicalLines readers text ppl ∧ ppl.length = text.count newline)
          ↔ (tail = [] → ∀ fields ∈ records, fields.OnOneLine)) := by
  obtain ⟨records, people, tail, read, last⟩ := exists_records readers text
  refine ⟨records, people, tail, read, last, ?_⟩
  rw [populate_eq read last]
  constructor
  · rintro accepted rfl
    exact read.count_newline_iff.mp (accepted people rfl).2
  · intro onOneLine ppl accepted
    rw [Option.some.injEq, Prod.mk.injEq, List.isEmpty_iff] at accepted
    obtain ⟨rfl, rfl⟩ := accepted
    exact ⟨read.physicalLines (onOneLine rfl), read.count_newline_iff.mpr (onOneLine rfl)⟩

end Breaks

/-- A line of the format, but for the line break in the name. -/
def brokenLine : List UInt8 :=
  sampleRendering.line { sample with name := [65, 110, 10, 110] }

/-- The two physical lines are accepted as one person. -/
theorem populate_accepts_brokenLine
    : populate sampleReaders (some brokenLine)
        = some (true, [{ sample with name := [65, 110, 10, 110] }])
      ∧ brokenLine.count newline = 2 := by
  decide +kernel

end PplMe.Engine

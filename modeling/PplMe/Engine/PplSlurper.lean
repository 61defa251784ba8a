import PplMe.Core.Person
import PplMe.Foundation.InputStreams

/-! The slurper, which populates a repository from a file of comma-separated values.
It never splits the file into lines: each record is a sequence of extractions from one stream,
whose readers for ids, dates and coordinates are those of the libraries.
-/

namespace PplMe.Engine

open PplMe.Core Floats InputStreams Stream

def comma : UInt8 := 44

def newline : UInt8 := 10

/-- How the libraries read: a whole string as an id, and formatted dates and coordinates. -/
structure Readers where
  uuid : List UInt8 → Option PersonId
  date : Reader Date
  coordinate : Reader FloatValue

/-- Why the slurper stops. -/
inductive SlurpError where
  | failedToReadId
  | failedToParseId
  | failedToReadName
  | failedToReadDateOfBirth
  | missingCommaAfterDateOfBirth
  | failedToReadLatitude
  | missingCommaAfterLatitude
  | failedToReadLongitude
  | unexpectedStuffsAtEndOfLine
  deriving DecidableEq, Repr

/-- How a round of the slurper's loop ends: with one person added, or for good. -/
inductive Round where
  | added (person : Person) (csvFile : Stream)
  | stopped (error : Option SlurpError) (csvFile : Stream)

def Round.error : Round → Option SlurpError
  | added _ _ => none
  | stopped error _ => error

section Slurper

variable (readers : Readers)

/-- One round: nine extractions, the id's text being parsed after the first. Only the first
may meet the end of the file without an error.
-/
def readRecord (csvFile : Stream) : Round :=
  let (idString, csvFile) := csvFile.getline comma
  if csvFile.fail then
    .stopped (if csvFile.eof then none else some .failedToReadId) csvFile
  else
    match readers.uuid idString with
    | none => .stopped (some .failedToParseId) csvFile
    | some id =>
        let (name, csvFile) := csvFile.getline comma
        if csvFile.fail then
          .stopped (some .failedToReadName) csvFile
        else
          match csvFile.extract readers.date with
          | (none, csvFile) => .stopped (some .failedToReadDateOfBirth) csvFile
          | (some dob, csvFile) =>
              let (afterDateOfBirth, csvFile) := csvFile.get
              if afterDateOfBirth ≠ some comma then
                .stopped (some .missingCommaAfterDateOfBirth) csvFile
              else
                match csvFile.extract readers.coordinate with
                | (none, csvFile) => .stopped (some .failedToReadLatitude) csvFile
                | (some latitude, csvFile) =>
                    let (afterLatitude, csvFile) := csvFile.get
                    if afterLatitude ≠ some comma then
                      .stopped (some .missingCommaAfterLatitude) csvFile
                    else
                      match csvFile.extract readers.coordinate with
                      | (none, csvFile) => .stopped (some .failedToReadLongitude) csvFile
                      | (some longitude, csvFile) =>
                          let (afterLongitude, csvFile) := csvFile.get
                          if afterLongitude ≠ some newline then
                            .stopped (some .unexpectedStuffsAtEndOfLine) csvFile
                          else
                            .added ⟨id, name, dob, ⟨latitude, longitude⟩⟩ csvFile

/-- The loop, with whether it succeeds and the people added by then; there is no result where
`fuel` rounds do not end it.
-/
def populateFrom : Nat → Stream → List Person → Option (Bool × List Person)
  | 0, _, _ => none
  | fuel + 1, csvFile, ppl =>
      if csvFile.fail then
        some (csvFile.eof, ppl)
      else
        match readRecord readers csvFile with
        | .added person csvFile => populateFrom fuel csvFile (ppl ++ [person])
        | .stopped error csvFile => some (error.isNone && csvFile.eof, ppl)

/-- `Populate`: whether it succeeds, and whom it adds. A file that cannot be opened is a stream
that has failed.
-/
def populate (file : Option (List UInt8)) : Option (Bool × List Person) :=
  match file with
  | none => populateFrom readers 1 ⟨[], false, true⟩ []
  | some text => populateFrom readers (text.length + 1) (opened text) []

end Slurper

/-- The characters of a record's fields, white space in front of formatted ones included. -/
structure Fields where
  id : List UInt8
  name : List UInt8
  dateOfBirth : List UInt8
  latitude : List UInt8
  longitude : List UInt8
  deriving DecidableEq

namespace Fields

variable (fields : Fields)

/-- The record of the fields in front of the rest of a file. -/
def before (after : List UInt8) : List UInt8 :=
  fields.id
  ++ comma :: (fields.name
    ++ comma :: (fields.dateOfBirth
      ++ comma :: (fields.latitude ++ comma :: (fields.longitude ++ newline :: after))))

/-- The record of the fields. -/
def text : List UInt8 := fields.before []

theorem before_eq (after : List UInt8) : fields.before after = fields.text ++ after := by
  simp [text, before]

/-- A person is read from the fields, where they stand in front of the rest of a file. -/
structure ReadAs (readers : Readers) (person : Person) (after : List UInt8) : Prop where
  id : comma ∉ fields.id ∧ readers.uuid fields.id = some person.id
  name : comma ∉ fields.name ∧ fields.name = person.name
  dateOfBirth
    : Extracts readers.date fields.dateOfBirth person.dateOfBirth
        (comma :: (fields.latitude ++ comma :: (fields.longitude ++ newline :: after)))
  latitude
    : Extracts readers.coordinate fields.latitude person.locationOfHome.latitude
        (comma :: (fields.longitude ++ newline :: after))
  longitude
    : Extracts readers.coordinate fields.longitude person.locationOfHome.longitude
        (newline :: after)

end Fields

section Rounds

variable {readers : Readers}

/-- A record in front of the rest of a file is read in one round. -/
theorem readRecord_of_readAs {fields : Fields} {person : Person} {after : List UInt8}
    (read : fields.ReadAs readers person after)
    : readRecord readers (opened (fields.before after)) = .added person (opened after) := by
  have fail (text : List UInt8) : (opened text).fail = false := rfl
  simp only [readRecord, Fields.before, getline_append read.id.1, fail, read.id.2,
    getline_append read.name.1, read.dateOfBirth.extract, get_cons, read.latitude.extract,
    read.longitude.extract, Bool.false_eq_true, if_false, ne_eq, not_true_eq_false]
  rw [read.name.2]

/-- After an id and a name the other fields are read, or the record is refused. -/
theorem readRecord_cases_of_name {idString name : List UInt8} {id : PersonId}
    (ofId : comma ∉ idString) (parsed : readers.uuid idString = some id) (ofName : comma ∉ name)
    (rest : List UInt8)
    : (∃ (dateOfBirth latitude longitude : List UInt8) (person : Person) (after : List UInt8),
        rest = dateOfBirth ++ comma :: (latitude ++ comma :: (longitude ++ newline :: after))
        ∧ (Fields.mk idString name dateOfBirth latitude longitude).ReadAs readers person after)
      ∨ (readRecord readers
          (opened (idString ++ comma :: (name ++ comma :: rest)))).error.isSome = true := by
  have fail (text : List UInt8) : (opened text).fail = false := rfl
  have idRead (rest : List UInt8) := @getline_append comma idString rest ofId
  have nameRead := @getline_append comma name rest ofName
  rcases extract_get_cases readers.date comma rest with
    ⟨dateOfBirth, dob, afterDate, rfl, readDate⟩ | ⟨csvFile, failed⟩
    | ⟨dob, csvFile, extracted, other⟩
  · rcases extract_get_cases readers.coordinate comma afterDate with
      ⟨latitudeText, latitude, afterLatitude, rfl, readLatitude⟩ | ⟨csvFile, failed⟩
      | ⟨latitude, csvFile, extracted, other⟩
    · rcases extract_get_cases readers.coordinate newline afterLatitude with
        ⟨longitudeText, longitude, after, rfl, readLongitude⟩ | ⟨csvFile, failed⟩
        | ⟨longitude, csvFile, extracted, other⟩
      · exact Or.inl ⟨dateOfBirth, latitudeText, longitudeText,
          ⟨id, name, dob, ⟨latitude, longitude⟩⟩, after, rfl,
          ⟨⟨ofId, parsed⟩, ⟨ofName, rfl⟩, readDate, readLatitude, readLongitude⟩⟩
      · apply Or.inr
        simp [readRecord, idRead, nameRead, fail, parsed, readDate.extract,
          readLatitude.extract, failed, Round.error]
      · apply Or.inr
        simp [readRecord, idRead, nameRead, fail, parsed, readDate.extract,
          readLatitude.extract, extracted, other, Round.error]
    · apply Or.inr
      simp [readRecord, idRead, nameRead, fail, parsed, readDate.extract, failed, Round.error]
    · apply Or.inr
      simp [readRecord, idRead, nameRead, fail, parsed, readDate.extract, extracted, other,
        Round.error]
  · apply Or.inr
    simp [readRecord, idRead, nameRead, fail, parsed, failed, Round.error]
  · apply Or.inr
    simp [readRecord, idRead, nameRead, fail, parsed, extracted, other, Round.error]

/-- From a text a person is read, or none is: at the end of the file the loop stops without an
error, and anywhere else with one.
-/
theorem readRecord_cases (readers : Readers) (text : List UInt8)
    : (∃ (fields : Fields) (person : Person) (after : List UInt8),
        text = fields.before after
        ∧ fields.ReadAs readers person after
        ∧ readRecord readers (opened text) = .added person (opened after))
      ∨ (text = [] ∧ readRecord readers (opened text) = .stopped none ⟨[], true, true⟩)
      ∨ (text ≠ [] ∧ (readRecord readers (opened text)).error.isSome = true) := by
  by_cases atEnd : text = []
  · subst atEnd
    exact Or.inr (Or.inl ⟨rfl, rfl⟩)
  · have refused (error : (readRecord readers (opened text)).error.isSome = true)
        : text ≠ [] ∧ (readRecord readers (opened text)).error.isSome = true :=
      ⟨atEnd, error⟩
    have fail (text : List UInt8) : (opened text).fail = false := rfl
    by_cases first : comma ∈ text
    · obtain ⟨idString, afterId, rfl, ofId⟩ := List.eq_append_cons_of_mem first
      cases parsed : readers.uuid idString with
      | none =>
          refine Or.inr (Or.inr (refused ?_))
          simp [readRecord, getline_append ofId, fail, parsed, Round.error]
      | some id =>
          by_cases second : comma ∈ afterId
          · obtain ⟨name, afterName, rfl, ofName⟩ := List.eq_append_cons_of_mem second
            rcases readRecord_cases_of_name ofId parsed ofName afterName with
              ⟨dateOfBirth, latitude, longitude, person, after, rfl, read⟩ | error
            · exact Or.inl ⟨_, person, after, rfl, read, readRecord_of_readAs read⟩
            · exact Or.inr (Or.inr (refused error))
          · have ended := @extract_of_eof _ ⟨[], true, afterId.isEmpty⟩ readers.date rfl
            refine Or.inr (Or.inr (refused ?_))
            simp only [readRecord, getline_append ofId, fail, parsed, getline_of_not_mem second,
              ended, Bool.false_eq_true, if_false]
            split <;> rfl
    · refine Or.inr (Or.inr (refused ?_))
      cases parsed : readers.uuid text with
      | none => simp [readRecord, getline_of_not_mem first, atEnd, parsed, Round.error]
      | some id =>
          have ended := @getline_fail_of_eof ⟨[], true, text.isEmpty⟩ comma rfl
          simp [readRecord, getline_of_not_mem first, atEnd, parsed, ended, Round.error]

end Rounds

end PplMe.Engine

import Mathlib.Data.List.Basic
import Mathlib.Data.List.TakeWhile

/-! Input streams with their eof and fail bits.
A line or a character is extracted as it stands; a formatted extraction skips white space and
leaves the rest to a reader. Every extraction first looks whether the stream is still good.
-/

namespace InputStreams

variable {α : Type*}

/-- The characters still to come, and what has happened so far. -/
structure Stream where
  rest : List UInt8
  eof : Bool
  fail : Bool
  deriving DecidableEq

/-- What a reader makes of the characters in front of it: a value unless it fails, how many it
takes, and whether it looked for one more at the end of the file.
-/
structure Extraction (α : Type*) where
  value : Option α
  taken : Nat
  reachedEnd : Bool

abbrev Reader (α : Type*) := List UInt8 → Extraction α

/-- White space in the classic locale. -/
def isSpace (character : UInt8) : Bool :=
  character == 32 || (9 ≤ character && character ≤ 13)

namespace Stream

/-- A stream in front of some text, with neither bit set. -/
def opened (text : List UInt8) : Stream := ⟨text, false, false⟩

def good (stream : Stream) : Bool := !stream.eof && !stream.fail

/-- `std::getline`: the characters up to a delimiter, which is taken as well, or up to the end.
It fails where there is none to take.
-/
def getline (delimiter : UInt8) (stream : Stream) : List UInt8 × Stream :=
  if stream.good then
    match stream.rest.dropWhile (· != delimiter) with
    | [] => (stream.rest, ⟨[], true, stream.rest.isEmpty⟩)
    | _ :: rest => (stream.rest.takeWhile (· != delimiter), opened rest)
  else
    ([], { stream with fail := true })

/-- `get()`, with no character at the end of the file. -/
def get (stream : Stream) : Option UInt8 × Stream :=
  if stream.good then
    match stream.rest with
    | [] => (none, ⟨[], true, true⟩)
    | character :: rest => (some character, opened rest)
  else
    (none, { stream with fail := true })

/-- `operator>>`: it has a value exactly when it does not fail. -/
def extract (reader : Reader α) (stream : Stream) : Option α × Stream :=
  if stream.good then
    match stream.rest.dropWhile isSpace with
    | [] => (none, ⟨[], true, true⟩)
    | text =>
        let extraction := reader text
        (extraction.value,
          ⟨text.drop extraction.taken, extraction.reachedEnd, extraction.value.isNone⟩)
  else
    (none, { stream with fail := true })

/-- A line in front of its delimiter is taken with it. -/
theorem getline_append {delimiter : UInt8} {line rest : List UInt8} (free : delimiter ∉ line)
    : (opened (line ++ delimiter :: rest)).getline delimiter = (line, opened rest) := by
  have others : ∀ character ∈ line, (character != delimiter) = true := by
    intro character member
    exact bne_iff_ne.mpr (fun same => free (same ▸ member))
  have dropped : (line ++ delimiter :: rest).dropWhile (· != delimiter) = delimiter :: rest := by
    rw [List.dropWhile_append_of_pos others]
    simp
  have kept : (line ++ delimiter :: rest).takeWhile (· != delimiter) = line := by
    rw [List.takeWhile_append_of_pos others]
    simp
  simp [getline, opened, good, dropped, kept]

/-- Without a delimiter the whole text is taken, and the end met. -/
theorem getline_of_not_mem {delimiter : UInt8} {text : List UInt8} (free : delimiter ∉ text)
    : (opened text).getline delimiter = (text, ⟨[], true, text.isEmpty⟩) := by
  have dropped : text.dropWhile (· != delimiter) = [] := by
    refine List.dropWhile_eq_nil_iff.mpr (fun character member => ?_)
    exact bne_iff_ne.mpr (fun same => free (same ▸ member))
  simp [getline, opened, good, dropped]

@[simp] theorem get_cons (character : UInt8) (rest : List UInt8)
    : (opened (character :: rest)).get = (some character, opened rest) := rfl

@[simp] theorem get_nil : (opened []).get = (none, ⟨[], true, true⟩) := rfl

/-- At the end of the file there is no character left. -/
theorem get_of_eof {stream : Stream} (ended : stream.eof = true) : stream.get.1 = none := by
  simp [get, good, ended]

/-- A stream that has met the end fails to take a line. -/
theorem getline_fail_of_eof {stream : Stream} (delimiter : UInt8) (ended : stream.eof = true)
    : (stream.getline delimiter).2.fail = true := by
  simp [getline, good, ended]

/-- Nor does it have a value to extract. -/
theorem extract_of_eof {stream : Stream} (reader : Reader α) (ended : stream.eof = true)
    : stream.extract reader = (none, { stream with fail := true }) := by
  simp [extract, good, ended]

/-- A reader takes a token in front of some rest after white space, and leaves the stream
good.
-/
def Extracts (reader : Reader α) (taken : List UInt8) (value : α) (rest : List UInt8) : Prop :=
  ∃ spaces token,
    taken = spaces ++ token
    ∧ (∀ character ∈ spaces, isSpace character = true)
    ∧ (∃ first more, token ++ rest = first :: more ∧ isSpace first = false)
    ∧ (reader (token ++ rest)).value = some value
    ∧ (reader (token ++ rest)).reachedEnd = false
    ∧ (token ++ rest).drop (reader (token ++ rest)).taken = rest

/-- What is extracted stands in front of the rest, white space included. -/
theorem Extracts.extract {reader : Reader α} {taken rest : List UInt8} {value : α}
    (extracts : Extracts reader taken value rest)
    : (opened (taken ++ rest)).extract reader = (some value, opened rest) := by
  obtain ⟨spaces, token, rfl, skipped, ⟨first, more, starts, solid⟩, read, short, left⟩ := extracts
  have dropped : (spaces ++ (token ++ rest)).dropWhile isSpace = first :: more := by
    rw [List.dropWhile_append_of_pos skipped, starts]
    simp [solid]
  rw [starts] at read short left
  rw [List.append_assoc]
  simp [Stream.extract, opened, good, dropped, read, short, left]

/-- A formatted extraction takes a token and leaves the stream good, fails, or meets the end. -/
theorem extract_cases (reader : Reader α) (text : List UInt8)
    : (∃ taken value rest,
        text = taken ++ rest
        ∧ Extracts reader taken value rest
        ∧ (opened text).extract reader = (some value, opened rest))
      ∨ ((opened text).extract reader).1 = none
      ∨ ((opened text).extract reader).2.eof = true := by
  cases dropped : text.dropWhile isSpace with
  | nil => simp [Stream.extract, opened, good, dropped]
  | cons first more =>
      cases read : (reader (first :: more)).value with
      | none => simp [Stream.extract, opened, good, dropped, read]
      | some value =>
          cases short : (reader (first :: more)).reachedEnd with
          | true => simp [Stream.extract, opened, good, dropped, short]
          | false =>
              let token := (first :: more).take (reader (first :: more)).taken
              let rest := (first :: more).drop (reader (first :: more)).taken
              have parts : token ++ rest = first :: more := List.take_append_drop _ _
              have whole : text = text.takeWhile isSpace ++ token ++ rest := by
                rw [List.append_assoc, parts, ← dropped, List.takeWhile_append_dropWhile]
              have solid : isSpace first = false := by
                have nonempty : text.dropWhile isSpace ≠ [] := by simp [dropped]
                simpa [dropped] using List.head_dropWhile_not isSpace nonempty
              refine Or.inl ⟨text.takeWhile isSpace ++ token, value, rest, whole, ?_, ?_⟩
              · exact ⟨_, token, rfl, fun _ member => List.mem_takeWhile_imp member,
                  ⟨first, more, parts, solid⟩, parts ▸ read, parts ▸ short, parts ▸ rfl⟩
              · simp [Stream.extract, opened, good, dropped, read, short, rest]

/-- A token in front of a separator is extracted and then the separator taken; otherwise the
extraction fails or the next character is not the separator.
-/
theorem extract_get_cases (reader : Reader α) (separator : UInt8) (text : List UInt8)
    : (∃ taken value rest,
        text = taken ++ separator :: rest ∧ Extracts reader taken value (separator :: rest))
      ∨ (∃ stream, (opened text).extract reader = (none, stream))
      ∨ ∃ value stream,
          (opened text).extract reader = (some value, stream)
          ∧ stream.get.1 ≠ some separator := by
  rcases extract_cases reader text with ⟨taken, value, rest, rfl, extracts, extracted⟩
    | failed | ended
  · cases rest with
    | nil => exact Or.inr (Or.inr ⟨value, _, extracted, by simp⟩)
    | cons character rest =>
        by_cases same : character = separator
        · subst same
          exact Or.inl ⟨taken, value, rest, rfl, extracts⟩
        · exact Or.inr (Or.inr ⟨value, _, extracted, by simpa using same⟩)
  · exact Or.inr (Or.inl ⟨_, Prod.ext failed rfl⟩)
  · cases extracted : (opened text).extract reader with
    | mk value stream =>
        rw [extracted] at ended
        cases value with
        | none => exact Or.inr (Or.inl ⟨stream, rfl⟩)
        | some value =>
            exact Or.inr (Or.inr ⟨value, stream, rfl, by simp [get_of_eof ended]⟩)

end Stream

end InputStreams

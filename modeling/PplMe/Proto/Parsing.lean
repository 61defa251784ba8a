import PplMe.Foundation.ProtobufReader
import PplMe.Foundation.SingleFloats
import PplMe.Proto.ConvertPerson
import PplMe.Proto.Wire

/-! Messages read from the wire.
Fields of a number or a wire type that a message does not have are passed over; of a singular
field that comes again the last one counts, or is merged into the message that was read before.
-/

namespace PplMe.Proto

open Floats Octets Protobuf

-----------------------------------------------------------------------------------------
-- Requests on the wire
-----------------------------------------------------------------------------------------

/-- A negative number is as long as one of 64 bits. -/
def varintOfInt32 (value : Int32) : Nat := (value.toInt % 2 ^ 64).toNat

def PplmeRequest.serialize (floatBits : FloatValue → UInt32) (request : PplmeRequest)
    : List UInt8 :=
  optionalField (fun location => lengthDelimitedField 1 (location.serialize floatBits))
    request.locationOfUser
  ++ optionalField (fun age => varintField 2 (varintOfInt32 age)) request.ageOfUser

def Request.serialize (floatBits : FloatValue → UInt32) (request : Request) : List UInt8 :=
  optionalField (fun pplmeRequest => lengthDelimitedField 1 (pplmeRequest.serialize floatBits))
    request.pplmeRequest

-----------------------------------------------------------------------------------------
-- Readers
-----------------------------------------------------------------------------------------

def Date.merge (date : Date) (field : Field) : Option Date :=
  match field with
  | ⟨1, .varint value⟩ => some { date with ymd := some (.ofNat value) }
  | _ => some date

def GeoPosition.merge (position : GeoPosition) (field : Field) : Option GeoPosition :=
  match field with
  | ⟨1, .fixed32 word⟩ => some { position with latitude := some (.ofBits word) }
  | ⟨2, .fixed32 word⟩ => some { position with longitude := some (.ofBits word) }
  | _ => some position

def Uuid.merge (uuid : Uuid) (field : Field) : Option Uuid :=
  match field with
  | ⟨1, .lengthDelimited octets⟩ => some { uuid with octets := some octets }
  | _ => some uuid

def Person.merge (person : Person) (field : Field) : Option Person :=
  match field with
  | ⟨1, .lengthDelimited octets⟩ => do
      let id ← mergeFields Uuid.merge (person.id.getD {}) octets
      pure { person with id := some id }
  | ⟨2, .lengthDelimited octets⟩ => some { person with name := some octets }
  | ⟨3, .lengthDelimited octets⟩ => do
      let date ← mergeFields Date.merge (person.dateOfBirth.getD {}) octets
      pure { person with dateOfBirth := some date }
  | ⟨4, .lengthDelimited octets⟩ => do
      let home ← mergeFields GeoPosition.merge (person.locationOfHome.getD {}) octets
      pure { person with locationOfHome := some home }
  | _ => some person

def PplmeRequest.merge (request : PplmeRequest) (field : Field) : Option PplmeRequest :=
  match field with
  | ⟨1, .lengthDelimited octets⟩ => do
      let location ← mergeFields GeoPosition.merge (request.locationOfUser.getD {}) octets
      pure { request with locationOfUser := some location }
  | ⟨2, .varint value⟩ => some { request with ageOfUser := some (.ofNat value) }
  | _ => some request

def Request.merge (request : Request) (field : Field) : Option Request :=
  match field with
  | ⟨1, .lengthDelimited octets⟩ => do
      let pplmeRequest ← mergeFields PplmeRequest.merge (request.pplmeRequest.getD {}) octets
      pure { request with pplmeRequest := some pplmeRequest }
  | _ => some request

def PplmeResponse.merge (response : PplmeResponse) (field : Field) : Option PplmeResponse :=
  match field with
  | ⟨1, .lengthDelimited octets⟩ => do
      let person ← mergeFields Person.merge {} octets
      pure { response with ppl := response.ppl ++ [person] }
  | _ => some response

/-- No required field is missing: ids have octets. -/
def PplmeResponse.isInitialized (response : PplmeResponse) : Bool :=
  response.ppl.all fun person => person.id.all fun id => id.octets.isSome

def Request.parse (octets : List UInt8) : Option Request := mergeFields Request.merge {} octets

def PplmeResponse.parse (octets : List UInt8) : Option PplmeResponse :=
  (mergeFields PplmeResponse.merge {} octets).filter PplmeResponse.isInitialized

-----------------------------------------------------------------------------------------
-- The fields that messages are written as
-----------------------------------------------------------------------------------------

section Fields

variable (floatBits : FloatValue → UInt32)

def Date.fields (date : Date) : List Field :=
  optionalFields 1 (fun ymd : UInt32 => .varint ymd.toNat) date.ymd

def GeoPosition.fields (position : GeoPosition) : List Field :=
  optionalFields 1 (fun latitude => .fixed32 (floatBits latitude)) position.latitude
  ++ optionalFields 2 (fun longitude => .fixed32 (floatBits longitude)) position.longitude

def Uuid.fields (uuid : Uuid) : List Field := optionalFields 1 .lengthDelimited uuid.octets

def Person.fields (person : Person) : List Field :=
  optionalFields 1 (fun id => .lengthDelimited id.serialize) person.id
  ++ (optionalFields 2 .lengthDelimited person.name
  ++ (optionalFields 3 (fun date => .lengthDelimited date.serialize) person.dateOfBirth
  ++ optionalFields 4 (fun home => .lengthDelimited (home.serialize floatBits))
    person.locationOfHome))

def PplmeRequest.fields (request : PplmeRequest) : List Field :=
  optionalFields 1 (fun location => .lengthDelimited (location.serialize floatBits))
    request.locationOfUser
  ++ optionalFields 2 (fun age => .varint (varintOfInt32 age)) request.ageOfUser

def Request.fields (request : Request) : List Field :=
  optionalFields 1 (fun pplmeRequest => .lengthDelimited (pplmeRequest.serialize floatBits))
    request.pplmeRequest

def PplmeResponse.fields (response : PplmeResponse) : List Field :=
  response.ppl.map fun person => ⟨1, .lengthDelimited (person.serialize floatBits)⟩

variable {floatBits}

theorem Date.serialize_eq (date : Date)
    : date.serialize = date.fields.flatMap Field.octets := by
  rw [fields, flatMap_optionalFields]
  rfl

theorem Uuid.serialize_eq (uuid : Uuid)
    : uuid.serialize = uuid.fields.flatMap Field.octets := by
  rw [fields, flatMap_optionalFields]
  rfl

theorem GeoPosition.serialize_eq (position : GeoPosition)
    : position.serialize floatBits = (position.fields floatBits).flatMap Field.octets := by
  rw [fields, List.flatMap_append, flatMap_optionalFields, flatMap_optionalFields]
  rfl

theorem Person.serialize_eq (person : Person)
    : person.serialize floatBits = (person.fields floatBits).flatMap Field.octets := by
  simp only [fields, List.flatMap_append, flatMap_optionalFields]
  rfl

theorem PplmeRequest.serialize_eq (request : PplmeRequest)
    : request.serialize floatBits = (request.fields floatBits).flatMap Field.octets := by
  rw [fields, List.flatMap_append, flatMap_optionalFields, flatMap_optionalFields]
  rfl

theorem Request.serialize_eq (request : Request)
    : request.serialize floatBits = (request.fields floatBits).flatMap Field.octets := by
  rw [fields, flatMap_optionalFields]
  rfl

theorem PplmeResponse.serialize_eq (response : PplmeResponse)
    : response.serialize floatBits = (response.fields floatBits).flatMap Field.octets := by
  rw [fields, List.flatMap_map]
  rfl

end Fields

-----------------------------------------------------------------------------------------
-- What was written is read back
-----------------------------------------------------------------------------------------

section RoundTrips

def GeoPosition.IsSingle (position : GeoPosition) : Prop :=
  (∀ latitude ∈ position.latitude, latitude.IsSingle)
  ∧ ∀ longitude ∈ position.longitude, longitude.IsSingle

variable {person : Person} {request : PplmeRequest}

/-- An embedded message is shorter than the message it is in. -/
theorem length_le_of_mem {Value : Type} {number : Nat} {write : Value → List UInt8}
    {value : Option Value} {known : Value} (member : known ∈ value)
    : (write known).length
      ≤ (optionalField (fun value => lengthDelimitedField number (write value)) value).length := by
  cases member
  exact length_le_lengthDelimitedField _

theorem Date.merge_serialize (date : Date)
    : mergeFields Date.merge {} date.serialize = some date := by
  obtain ⟨ymd⟩ := date
  cases ymd with
  | none => rfl
  | some ymd =>
      have short : varintSize ymd.toNat ≤ 5 :=
        varintSize_le (by decide) (ymd.toNat_lt.trans (by decide))
      have length : (Date.mk (some ymd)).serialize.length = 1 + varintSize ymd.toNat :=
        varintField_length (by decide)
      rw [serialize_eq, mergeFields_octets]
      · simp [fields, optionalFields, merge]
      · exact writable_optionalFields fun known _ =>
          writable_varint (by decide) (known.toNat_lt.trans (by decide))
      · rw [← serialize_eq, length]
        omega

theorem Uuid.merge_serialize {uuid : Uuid} (short : uuid.serialize.length < 2 ^ 64)
    : mergeFields Uuid.merge {} uuid.serialize = some uuid := by
  rw [serialize_eq] at short ⊢
  rw [mergeFields_octets _ short]
  · obtain ⟨octets⟩ := uuid
    cases octets with
    | none => rfl
    | some octets => rfl
  · exact writable_optionalFields fun _ _ => writable_lengthDelimited (by decide)

theorem GeoPosition.merge_serialize {position : GeoPosition} (single : position.IsSingle)
    : mergeFields GeoPosition.merge {} (position.serialize FloatValue.bits) = some position := by
  have short : (position.serialize FloatValue.bits).length < 2 ^ 64 := by
    obtain ⟨latitude, longitude⟩ := position
    cases latitude <;> cases longitude <;>
      simp [serialize, optionalField, fixed32Field_length]
  rw [serialize_eq] at short ⊢
  rw [mergeFields_octets _ short]
  · obtain ⟨latitude, longitude⟩ := position
    obtain ⟨singleLatitude, singleLongitude⟩ := single
    cases latitude <;> cases longitude <;>
      simp_all [fields, optionalFields, merge, ofBits_bits]
  · exact List.forall_mem_append.mpr
      ⟨writable_optionalFields fun _ _ => writable_fixed32 (by decide),
        writable_optionalFields fun _ _ => writable_fixed32 (by decide)⟩

theorem ofNat_varintOfInt32 (value : Int32) : Int32.ofNat (varintOfInt32 value) = value := by
  have low := value.le_toInt
  have high := value.toInt_lt
  rw [← Int32.ofInt_eq_ofNat, Int32.ofInt_eq_iff_bmod_eq_toInt, varintOfInt32,
    Int.toNat_of_nonneg (Int.emod_nonneg _ (by decide)), Int.bmod_def]
  omega

def Person.IsSingle (person : Person) : Prop := ∀ home ∈ person.locationOfHome, home.IsSingle

theorem Person.merge_serialize (single : person.IsSingle)
    (short : (person.serialize FloatValue.bits).length < 2 ^ 64)
    : mergeFields Person.merge {} (person.serialize FloatValue.bits) = some person := by
  have length := short
  simp only [serialize, List.length_append] at length
  rw [serialize_eq] at short ⊢
  rw [mergeFields_octets _ short, fields, ← List.append_nil (optionalFields 4 _ _)]
  · have idRead : ∀ known ∈ person.id, mergeFields Uuid.merge {} known.serialize = some known := by
      intro known member
      have within := @length_le_of_mem _ 1 Uuid.serialize _ _ member
      exact Uuid.merge_serialize (by omega)
    refine (@foldlM_optionalFields _ _ _ _ _ _ _ ⟨person.id, none, none, none⟩ _
      (fun absent => absent ▸ rfl) fun known member => ?_).trans ?_
    · change (mergeFields Uuid.merge {} known.serialize).bind _ = _
      rw [idRead known member, Option.mem_def.mp member]
      rfl
    refine (@foldlM_optionalFields _ _ _ _ _ _ _ ⟨person.id, person.name, none, none⟩ _
      (fun absent => absent ▸ rfl) fun known member => member.symm ▸ rfl).trans ?_
    refine (@foldlM_optionalFields _ _ _ _ _ _ _ ⟨person.id, person.name, person.dateOfBirth, none⟩
      _ (fun absent => absent ▸ rfl) fun known member => ?_).trans ?_
    · change (mergeFields Date.merge {} known.serialize).bind _ = _
      rw [Date.merge_serialize, Option.mem_def.mp member]
      rfl
    refine (@foldlM_optionalFields _ _ _ _ _ _ _
      ⟨person.id, person.name, person.dateOfBirth, person.locationOfHome⟩ _
      (fun absent => absent ▸ rfl) fun known member => ?_).trans rfl
    change (mergeFields GeoPosition.merge {} (known.serialize FloatValue.bits)).bind _ = _
    rw [GeoPosition.merge_serialize (single known member), Option.mem_def.mp member]
    rfl
  · have nested {Value : Type} (number : Nat) (small : number < 2 ^ 29)
        (octets : Value → List UInt8) (value : Option Value) :=
      @writable_optionalFields _ number (fun known => .lengthDelimited (octets known)) value
        fun _ _ => writable_lengthDelimited small
    simp only [fields, List.forall_mem_append]
    exact ⟨nested 1 (by decide) _ _, nested 2 (by decide) _ _, nested 3 (by decide) _ _,
      nested 4 (by decide) _ _⟩

def PplmeRequest.IsSingle (request : PplmeRequest) : Prop :=
  ∀ location ∈ request.locationOfUser, location.IsSingle

theorem PplmeRequest.merge_serialize (single : request.IsSingle)
    (short : (request.serialize FloatValue.bits).length < 2 ^ 64)
    : mergeFields PplmeRequest.merge {} (request.serialize FloatValue.bits) = some request := by
  rw [serialize_eq] at short ⊢
  rw [mergeFields_octets _ short, fields, ← List.append_nil (optionalFields 2 _ _)]
  · refine (@foldlM_optionalFields _ _ _ _ _ _ _ ⟨request.locationOfUser, none⟩ _
      (fun absent => absent ▸ rfl) fun known member => ?_).trans ?_
    · change (mergeFields GeoPosition.merge {} (known.serialize FloatValue.bits)).bind _ = _
      rw [GeoPosition.merge_serialize (single known member), Option.mem_def.mp member]
      rfl
    refine (@foldlM_optionalFields _ _ _ _ _ _ _ ⟨request.locationOfUser, request.ageOfUser⟩ _
      (fun absent => absent ▸ rfl) fun known member => ?_).trans rfl
    change some (PplmeRequest.mk _ (some (Int32.ofNat (varintOfInt32 known)))) = _
    rw [ofNat_varintOfInt32, Option.mem_def.mp member]
  · refine List.forall_mem_append.mpr ⟨writable_optionalFields fun _ _ =>
      writable_lengthDelimited (by decide), writable_optionalFields fun known _ =>
      writable_varint (by decide) ?_⟩
    have bound := Int.emod_lt_of_pos known.toInt (show (0 : Int) < 2 ^ 64 by decide)
    rw [varintOfInt32]
    omega

/-- The coordinates that a request has are single-precision values. -/
def Request.IsSingle (request : Request) : Prop :=
  ∀ pplmeRequest ∈ request.pplmeRequest, pplmeRequest.IsSingle

theorem Request.parse_serialize {request : Request} (single : request.IsSingle)
    (short : (request.serialize FloatValue.bits).length < 2 ^ 64)
    : Request.parse (request.serialize FloatValue.bits) = some request := by
  have length := short
  simp only [serialize] at length
  rw [parse, serialize_eq] at *
  rw [mergeFields_octets _ short, fields, ← List.append_nil (optionalFields 1 _ _)]
  · refine (@foldlM_optionalFields _ _ _ _ _ _ _ ⟨request.pplmeRequest⟩ _
      (fun absent => absent ▸ rfl) fun known member => ?_).trans rfl
    have within := @length_le_of_mem _ 1 (PplmeRequest.serialize FloatValue.bits) _ _ member
    change (mergeFields PplmeRequest.merge {} (known.serialize FloatValue.bits)).bind _ = _
    rw [PplmeRequest.merge_serialize (single known member) (by omega), Option.mem_def.mp member]
    rfl
  · exact writable_optionalFields fun _ _ => writable_lengthDelimited (by decide)

/-- And those of all people that a response has. -/
def PplmeResponse.IsSingle (response : PplmeResponse) : Prop :=
  ∀ person ∈ response.ppl, person.IsSingle

/-- By induction on the people that are yet to be merged. -/
theorem PplmeResponse.foldlM_merge {ppl : List Person} (before : PplmeResponse)
    (single : ∀ person ∈ ppl, person.IsSingle)
    (short : ((PplmeResponse.mk ppl).serialize FloatValue.bits).length < 2 ^ 64)
    : ((PplmeResponse.mk ppl).fields FloatValue.bits).foldlM PplmeResponse.merge before
      = some ⟨before.ppl ++ ppl⟩ := by
  induction ppl generalizing before with
  | nil => simp [fields]
  | cons person ppl ih =>
      obtain ⟨singlePerson, others⟩ := List.forall_mem_cons.mp single
      have length := short
      simp only [serialize, repeatedField, List.flatMap_cons, List.length_append] at length
      have within := @length_le_lengthDelimitedField 1 (person.serialize FloatValue.bits)
      have read := Person.merge_serialize singlePerson (by omega)
      have later := ih ⟨before.ppl ++ [person]⟩ others (by
        simp only [serialize, repeatedField]
        omega)
      change (mergeFields Person.merge {} (person.serialize FloatValue.bits)).bind _ >>= _ = _
      rw [read]
      refine later.trans ?_
      simp

theorem PplmeResponse.parse_serialize {response : PplmeResponse} (single : response.IsSingle)
    (initialized : response.isInitialized = true)
    (short : (response.serialize FloatValue.bits).length < 2 ^ 64)
    : PplmeResponse.parse (response.serialize FloatValue.bits) = some response := by
  have merged := PplmeResponse.foldlM_merge {} single short
  rw [List.nil_append] at merged
  rw [serialize_eq] at short
  rw [parse, serialize_eq, mergeFields_octets _ short]
  · rw [show response.fields FloatValue.bits = (PplmeResponse.mk response.ppl).fields _ from rfl,
      merged, Option.filter_some, if_pos initialized]
  · intro field member
    obtain ⟨person, _, rfl⟩ := List.mem_map.mp member
    exact writable_lengthDelimited (by decide)

end RoundTrips

-----------------------------------------------------------------------------------------
-- Parsers
-----------------------------------------------------------------------------------------

/-- How messages are parsed. Of a parser it is known that it reads what was written, if that is no
longer than a mebibyte.
-/
structure Parsers where
  request : List UInt8 → Option Request
  response : List UInt8 → Option PplmeResponse
  request_serialize
    : ∀ message : Request,
        message.IsSingle
        → (message.serialize FloatValue.bits).length ≤ 2 ^ 20
        → request (message.serialize FloatValue.bits) = some message
  response_serialize
    : ∀ message : PplmeResponse,
        message.IsSingle
        → message.isInitialized = true
        → (message.serialize FloatValue.bits).length ≤ 2 ^ 20
        → response (message.serialize FloatValue.bits) = some message

/-- The readers are parsers. -/
def Parsers.readers : Parsers where
  request := Request.parse
  response := PplmeResponse.parse
  request_serialize message single short :=
    Request.parse_serialize single (Nat.lt_of_le_of_lt short (by decide))
  response_serialize message single initialized short :=
    PplmeResponse.parse_serialize single initialized (Nat.lt_of_le_of_lt short (by decide))

/-- What people are converted to has all required fields. -/
theorem isInitialized_ofPerson (host : ByteOrder) (ppl : List Core.Person)
    : (PplmeResponse.mk (ppl.map (Person.ofPerson host))).isInitialized = true := by
  simp [PplmeResponse.isInitialized, Person.ofPerson, Uuid.ofUuid]

/-- And has single-precision coordinates if they have. -/
theorem isSingle_ofPerson (host : ByteOrder) {ppl : List Core.Person}
    (single
      : ∀ person ∈ ppl,
          person.locationOfHome.latitude.IsSingle ∧ person.locationOfHome.longitude.IsSingle)
    : (PplmeResponse.mk (ppl.map (Person.ofPerson host))).IsSingle := by
  intro message member home located
  obtain ⟨person, stored, rfl⟩ := List.mem_map.mp member
  cases located
  exact ⟨fun latitude same => Option.some.inj same ▸ (single person stored).1,
    fun longitude same => Option.some.inj same ▸ (single person stored).2⟩

end PplMe.Proto

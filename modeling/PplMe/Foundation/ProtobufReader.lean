import PplMe.Foundation.Protobuf

/-! Reading messages in the protobuf wire format.
The octets of a message are read as fields, one after the other; each begins with its number and
wire type, from which the reader knows where it ends. What was written is read back.
-/

namespace Protobuf

inductive Payload where
  | varint (value : Nat)
  | lengthDelimited (octets : List UInt8)
  | fixed32 (word : UInt32)
  deriving DecidableEq, Repr

structure Field where
  number : Nat
  payload : Payload
  deriving DecidableEq, Repr

def Field.octets (field : Field) : List UInt8 :=
  match field.payload with
  | .varint value => varintField field.number value
  | .lengthDelimited octets => lengthDelimitedField field.number octets
  | .fixed32 word => fixed32Field field.number word

/-- The number of a field takes all but three bits of a word, and a value is a word of 64 bits. -/
def Field.Writable (field : Field) : Prop :=
  field.number < 2 ^ 29
  ∧ match field.payload with
    | .varint value => value < 2 ^ 64
    | _ => True

-----------------------------------------------------------------------------------------
-- Readers
-----------------------------------------------------------------------------------------

/-- A varint of at most so many octets, and what follows it. -/
def readVarint : Nat → List UInt8 → Option (Nat × List UInt8)
  | 0, _ => none
  | _, [] => none
  | limit + 1, octet :: rest =>
      if octet.toNat < 128 then
        some (octet.toNat, rest)
      else do
        let (high, rest) ← readVarint limit rest
        pure (octet.toNat % 128 + 128 * high, rest)

/-- So many octets, and what follows them. -/
def readOctets (size : Nat) (octets : List UInt8) : Option (List UInt8 × List UInt8) :=
  if size ≤ octets.length then
    some (octets.take size, octets.drop size)
  else
    none

/-- A word, its least significant octet first. -/
def readFixed32 : List UInt8 → Option (UInt32 × List UInt8)
  | first :: second :: third :: fourth :: rest =>
      some
        (.ofNat
          (first.toNat + second.toNat * 2 ^ 8 + third.toNat * 2 ^ 16 + fourth.toNat * 2 ^ 24),
        rest)
  | _ => none

/-- A field. Of a value beyond 64 bits the lower ones are left. -/
def readField (octets : List UInt8) : Option (Field × List UInt8) := do
  let (tag, rest) ← readVarint 10 octets
  match tag % 8 with
  | 0 => do
      let (value, rest) ← readVarint 10 rest
      pure (⟨tag / 8, .varint (value % 2 ^ 64)⟩, rest)
  | 2 => do
      let (size, rest) ← readVarint 10 rest
      let (octets, rest) ← readOctets size rest
      pure (⟨tag / 8, .lengthDelimited octets⟩, rest)
  | 5 => do
      let (word, rest) ← readFixed32 rest
      pure (⟨tag / 8, .fixed32 word⟩, rest)
  | _ => none

/-- So many fields at most. -/
def readFieldsWithin : Nat → List UInt8 → Option (List Field)
  | _, [] => some []
  | 0, _ :: _ => none
  | limit + 1, octet :: octets => do
      let (field, rest) ← readField (octet :: octets)
      let fields ← readFieldsWithin limit rest
      pure (field :: fields)

/-- All fields of a message: each takes an octet at least. -/
def readFields (octets : List UInt8) : Option (List Field) := readFieldsWithin octets.length octets

/-- A message into which fields are merged, in order. -/
def mergeFields {Message : Type} (merge : Message → Field → Option Message) (message : Message)
    (octets : List UInt8)
    : Option Message := do
  let fields ← readFields octets
  fields.foldlM merge message

/-- The fields that an optional value gives. -/
def optionalFields {Value : Type*} (number : Nat) (payload : Value → Payload)
    (value : Option Value)
    : List Field :=
  (value.map fun value => ⟨number, payload value⟩).toList

-----------------------------------------------------------------------------------------
-- What was written is read back
-----------------------------------------------------------------------------------------

section RoundTrips

variable {rest : List UInt8}

/-- By induction on the digits. -/
theorem readVarint_varint {value limit : Nat} (fits : varintSize value ≤ limit)
    : readVarint limit (varint value ++ rest) = some (value, rest) := by
  induction value using varint.induct generalizing limit with
  | case1 value small =>
      cases limit with
      | zero => simp [varintSize] at fits
      | succ limit =>
          have octet : (UInt8.ofNat value).toNat = value := by
            rw [UInt8.toNat_ofNat']
            omega
          rw [varint, if_pos small, List.singleton_append, readVarint, octet, if_pos small]
  | case2 value large ih =>
      have octet : (UInt8.ofNat (value % 128 + 128)).toNat = value % 128 + 128 := by
        rw [UInt8.toNat_ofNat']
        omega
      have size : varintSize value = varintSize (value / 128) + 1 := by
        rw [← varint_length, varint, if_neg large, List.length_cons, varint_length]
      cases limit with
      | zero => omega
      | succ limit =>
          rw [varint, if_neg large, List.cons_append, readVarint, octet, if_neg (by omega),
            ih (by omega)]
          simp [Nat.mod_add_div]

/-- A value of 64 bits takes ten octets at most. -/
theorem readVarint_word {value : Nat} (fits : value < 2 ^ 64)
    : readVarint 10 (varint value ++ rest) = some (value, rest) :=
  readVarint_varint (varintSize_le (by decide) (fits.trans (by decide)))

theorem readOctets_append (octets : List UInt8)
    : readOctets octets.length (octets ++ rest) = some (octets, rest) := by
  rw [readOctets, if_pos (by simp), List.take_left, List.drop_left]

/-- What is within a field is no longer than the field. -/
theorem length_le_lengthDelimitedField {number : Nat} (octets : List UInt8)
    : octets.length ≤ (lengthDelimitedField number octets).length := by
  simp only [lengthDelimitedField, List.length_append]
  omega

theorem readTag {number : Nat} (fits : number < 2 ^ 29) (wireType : WireType)
    : readVarint 10 (tag number wireType ++ rest)
      = some (number * 8 + wireType.code, rest) := by
  have code : wireType.code < 8 := by cases wireType <;> decide
  exact readVarint_word (by omega)

/-- The four octets of a word. -/
theorem readFixed32_word (word : UInt32)
    : readFixed32
        ([.ofNat word.toNat, .ofNat (word.toNat / 2 ^ 8), .ofNat (word.toNat / 2 ^ 16),
          .ofNat (word.toNat / 2 ^ 24)] ++ rest)
      = some (word, rest) := by
  have bound := word.toNat_lt
  have digits : word.toNat % 256 + word.toNat / 2 ^ 8 % 256 * 2 ^ 8
      + word.toNat / 2 ^ 16 % 256 * 2 ^ 16 + word.toNat / 2 ^ 24 % 256 * 2 ^ 24
      = word.toNat := by
    omega
  have same : UInt32.ofNat (word.toNat % 256 + word.toNat / 2 ^ 8 % 256 * 2 ^ 8
      + word.toNat / 2 ^ 16 % 256 * 2 ^ 16 + word.toNat / 2 ^ 24 % 256 * 2 ^ 24) = word := by
    rw [digits]
    exact UInt32.ofNat_toNat
  simp only [List.cons_append, List.nil_append, readFixed32, UInt8.toNat_ofNat',
    Option.some.injEq, Prod.mk.injEq, and_true]
  exact same

/-- One case for each wire type. -/
theorem readField_octets {field : Field} (writable : field.Writable)
    (short : field.octets.length < 2 ^ 64)
    : readField (field.octets ++ rest) = some (field, rest) := by
  obtain ⟨number, payload⟩ := field
  obtain ⟨small, payloadFits⟩ := writable
  have numberOf (wireType : WireType) : (number * 8 + wireType.code) / 8 = number := by
    have code : wireType.code < 8 := by cases wireType <;> decide
    omega
  have codeOf (wireType : WireType) : (number * 8 + wireType.code) % 8 = wireType.code := by
    cases wireType <;> simp [WireType.code]
  cases payload with
  | varint value =>
      have tag := @readTag (varint value ++ rest) number small .varint
      change readField (varintField number value ++ rest) = _
      rw [readField, varintField, List.append_assoc, tag]
      simp only [Option.bind_eq_bind, Option.bind_some, codeOf .varint, numberOf .varint]
      change (readVarint 10 (varint value ++ rest)).bind _ = _
      rw [readVarint_word payloadFits, Option.bind_some, Nat.mod_eq_of_lt payloadFits]
      rfl
  | lengthDelimited octets =>
      have tag := @readTag (varint octets.length ++ (octets ++ rest)) number small .lengthDelimited
      have sizeFits : octets.length < 2 ^ 64 :=
        Nat.lt_of_le_of_lt (length_le_lengthDelimitedField octets) short
      change readField (lengthDelimitedField number octets ++ rest) = _
      rw [readField, lengthDelimitedField, List.append_assoc, List.append_assoc, tag]
      simp only [Option.bind_eq_bind, Option.bind_some, codeOf .lengthDelimited,
        numberOf .lengthDelimited]
      change (readVarint 10 (varint octets.length ++ (octets ++ rest))).bind _ = _
      rw [readVarint_word sizeFits, Option.bind_some]
      change (readOctets octets.length (octets ++ rest)).bind _ = _
      rw [readOctets_append, Option.bind_some]
      rfl
  | fixed32 word =>
      change readField (fixed32Field number word ++ rest) = _
      rw [readField, fixed32Field, List.append_assoc, readTag small .fixed32]
      simp only [Option.bind_eq_bind, Option.bind_some, codeOf .fixed32, numberOf .fixed32]
      change (readFixed32 _).bind _ = _
      rw [readFixed32_word, Option.bind_some]
      rfl

/-- A field's tag is an octet at least. -/
theorem Field.exists_octets (field : Field) : ∃ octet octets, field.octets = octet :: octets := by
  have some : field.octets ≠ [] := by
    have sized (number : Nat) (wireType : WireType) : tag number wireType ≠ [] :=
      List.ne_nil_of_length_pos (by rw [tag, varint_length, varintSize]; exact Nat.succ_pos _)
    obtain ⟨number, payload⟩ := field
    cases payload with
    | varint value => exact List.append_ne_nil_of_left_ne_nil (sized _ _) _
    | lengthDelimited octets => exact List.append_ne_nil_of_left_ne_nil (sized _ _) _
    | fixed32 word => exact List.append_ne_nil_of_left_ne_nil (sized _ _) _
  exact List.exists_cons_of_ne_nil some

/-- By induction on the fields. -/
theorem readFieldsWithin_octets {fields : List Field}
    (writable : ∀ field ∈ fields, field.Writable)
    (short : (fields.flatMap Field.octets).length < 2 ^ 64)
    {limit : Nat} (enough : fields.length ≤ limit)
    : readFieldsWithin limit (fields.flatMap Field.octets) = some fields := by
  induction fields generalizing limit with
  | nil => cases limit <;> rfl
  | cons field fields ih =>
      obtain ⟨octet, octets, same⟩ := field.exists_octets
      obtain ⟨first, others⟩ := List.forall_mem_cons.mp writable
      rw [List.flatMap_cons, List.length_append] at short
      have read := @readField_octets (fields.flatMap Field.octets) field first (by omega)
      rw [same, List.cons_append] at read
      cases limit with
      | zero => cases enough
      | succ limit =>
          have later := ih others (by omega) (Nat.le_of_succ_le_succ enough)
          rw [List.flatMap_cons, same, List.cons_append, readFieldsWithin, read]
          simp [later]

/-- There are no more fields than octets. -/
theorem length_le_octets (fields : List Field)
    : fields.length ≤ (fields.flatMap Field.octets).length := by
  induction fields with
  | nil => exact Nat.zero_le _
  | cons field fields ih =>
      obtain ⟨octet, octets, same⟩ := field.exists_octets
      rw [List.flatMap_cons, List.length_append, same, List.length_cons, List.length_cons]
      omega

theorem readFields_octets {fields : List Field} (writable : ∀ field ∈ fields, field.Writable)
    (short : (fields.flatMap Field.octets).length < 2 ^ 64)
    : readFields (fields.flatMap Field.octets) = some fields :=
  readFieldsWithin_octets writable short (length_le_octets fields)

/-- Merging what was written merges the fields. -/
theorem mergeFields_octets {Message : Type} {merge : Message → Field → Option Message}
    {message : Message} {fields : List Field} (writable : ∀ field ∈ fields, field.Writable)
    (short : (fields.flatMap Field.octets).length < 2 ^ 64)
    : mergeFields merge message (fields.flatMap Field.octets) = fields.foldlM merge message := by
  rw [mergeFields, readFields_octets writable short]
  rfl

end RoundTrips

section Optional

theorem writable_varint {number value : Nat} (small : number < 2 ^ 29) (fits : value < 2 ^ 64)
    : (Field.mk number (.varint value)).Writable :=
  ⟨small, fits⟩

theorem writable_lengthDelimited {number : Nat} {octets : List UInt8} (small : number < 2 ^ 29)
    : (Field.mk number (.lengthDelimited octets)).Writable :=
  ⟨small, trivial⟩

theorem writable_fixed32 {number : Nat} {word : UInt32} (small : number < 2 ^ 29)
    : (Field.mk number (.fixed32 word)).Writable :=
  ⟨small, trivial⟩

variable {Value : Type*} {number : Nat} {payload : Value → Payload} {value : Option Value}

theorem flatMap_optionalFields
    : (optionalFields number payload value).flatMap Field.octets
      = optionalField (fun value => (Field.mk number (payload value)).octets) value := by
  cases value with
  | none => rfl
  | some value => exact List.flatMap_singleton _ _

theorem writable_optionalFields
    (writable : ∀ known ∈ value, (Field.mk number (payload known)).Writable)
    : ∀ field ∈ optionalFields number payload value, field.Writable := by
  cases value with
  | none => exact nofun
  | some value => exact fun field member => List.mem_singleton.mp member ▸ writable value rfl

/-- An optional field is merged if it is there. -/
theorem foldlM_optionalFields {Message : Type} {merge : Message → Field → Option Message}
    {message merged : Message} {rest : List Field}
    (absent : value = none → message = merged)
    (present : ∀ known ∈ value, merge message ⟨number, payload known⟩ = some merged)
    : (optionalFields number payload value ++ rest).foldlM merge message
      = rest.foldlM merge merged := by
  cases value with
  | none => rw [absent rfl, optionalFields, Option.map_none, Option.toList_none, List.nil_append]
  | some value =>
      rw [optionalFields, Option.map_some, Option.toList_some, List.singleton_append,
        List.foldlM_cons, present value rfl]
      rfl

end Optional

end Protobuf

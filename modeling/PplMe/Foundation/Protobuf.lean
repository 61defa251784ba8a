import Mathlib.Data.Nat.Log
import Mathlib.Data.List.Basic
import Mathlib.Algebra.BigOperators.Group.List.Basic
import Mathlib.Algebra.GroupWithZero.Nat

/-! The protobuf wire format, as far as messages are written in it: varints, tags, and the
fields of a message one after the other.
-/

namespace Protobuf

/-- Seven bits to an octet, the least significant first; all octets but the last are marked. -/
def varint (value : Nat) : List UInt8 :=
  if value < 128 then
    [.ofNat value]
  else
    .ofNat (value % 128 + 128) :: varint (value / 128)

/-- How many octets a varint is: one for each digit to base 128. -/
def varintSize (value : Nat) : Nat := Nat.log 128 value + 1

inductive WireType where
  | varint
  | lengthDelimited
  | fixed32
  deriving DecidableEq

def WireType.code : WireType → Nat
  | .varint => 0
  | .lengthDelimited => 2
  | .fixed32 => 5

/-- A field's number and wire type. -/
def tag (number : Nat) (wireType : WireType) : List UInt8 := varint (number * 8 + wireType.code)

def varintField (number value : Nat) : List UInt8 := tag number .varint ++ varint value

/-- A string, some bytes, or a message within a message. -/
def lengthDelimitedField (number : Nat) (octets : List UInt8) : List UInt8 :=
  tag number .lengthDelimited ++ (varint octets.length ++ octets)

/-- A word, the least significant octet first. -/
def fixed32Field (number : Nat) (word : UInt32) : List UInt8 :=
  tag number .fixed32
  ++ [.ofNat word.toNat, .ofNat (word.toNat / 2 ^ 8), .ofNat (word.toNat / 2 ^ 16),
    .ofNat (word.toNat / 2 ^ 24)]

/-- An optional field is written if it is there. -/
def optionalField {Value : Type*} (write : Value → List UInt8) (value : Option Value)
    : List UInt8 :=
  (value.map write).getD []

@[simp] theorem optionalField_some {Value : Type*} (write : Value → List UInt8) (value : Value)
    : optionalField write (some value) = write value := rfl

/-- A repeated field is written as often as it is there, in order. -/
def repeatedField {Value : Type*} (write : Value → List UInt8) (values : List Value)
    : List UInt8 :=
  values.flatMap write

/-- By induction on the digits. -/
@[simp] theorem varint_length (value : Nat) : (varint value).length = varintSize value := by
  induction value using varint.induct with
  | case1 value small =>
      rw [varint, if_pos small, varintSize, Nat.log_of_lt small]
      rfl
  | case2 value large ih =>
      rw [varint, if_neg large, List.length_cons, ih, varintSize, varintSize,
        Nat.log_of_one_lt_of_le (by decide) (Nat.not_lt.mp large)]

theorem varintSize_of_lt {value : Nat} (small : value < 128) : varintSize value = 1 := by
  rw [varintSize, Nat.log_of_lt small]

theorem varintSize_le {value digits : Nat} (some : digits ≠ 0) (small : value < 128 ^ digits)
    : varintSize value ≤ digits :=
  Nat.log_lt_of_lt_pow' some small

/-- The tags of the first fields are a single octet. -/
theorem tag_length {number : Nat} {wireType : WireType} (first : number < 15)
    : (tag number wireType).length = 1 := by
  have code : wireType.code ≤ 5 := by cases wireType <;> decide
  rw [tag, varint_length, varintSize_of_lt (by omega)]

theorem varintField_length {number value : Nat} (first : number < 15)
    : (varintField number value).length = 1 + varintSize value := by
  rw [varintField, List.length_append, tag_length first, varint_length]

theorem lengthDelimitedField_length {number : Nat} {octets : List UInt8} (first : number < 15)
    : (lengthDelimitedField number octets).length
      = 1 + (varintSize octets.length + octets.length) := by
  simp only [lengthDelimitedField, List.length_append, tag_length first, varint_length]

theorem fixed32Field_length {number : Nat} {word : UInt32} (first : number < 15)
    : (fixed32Field number word).length = 5 := by
  simp [fixed32Field, tag_length first]

theorem repeatedField_length {Value : Type*} (write : Value → List UInt8) (values : List Value)
    : (repeatedField write values).length
      = (values.map fun value => (write value).length).sum := by
  rw [repeatedField, List.length_flatMap]

end Protobuf

import Mathlib.Algebra.Group.Nat.Defs
import Mathlib.Data.List.Basic

/-! Words in a host's memory, as octets.
A host stores a 32-bit word either from its most or from its least significant octet on.
Network order is the first of the two, whatever the host's own order is.
-/

namespace Octets

inductive ByteOrder where
  | bigEndian
  | littleEndian
  deriving DecidableEq, Repr

/-- The octets of a word, the most significant first. -/
def networkOctets (word : UInt32) : List UInt8 :=
  [.ofNat (word.toNat / 2 ^ 24), .ofNat (word.toNat / 2 ^ 16), .ofNat (word.toNat / 2 ^ 8),
    .ofNat word.toNat]

/-- The number that octets denote, the most significant first. -/
def networkValue (octets : List UInt8) : Nat :=
  octets.foldl (fun value octet => value * 2 ^ 8 + octet.toNat) 0

namespace ByteOrder

/-- A word's octets in the order of their addresses. -/
def store : ByteOrder → UInt32 → List UInt8
  | .bigEndian, word => networkOctets word
  | .littleEndian, word => (networkOctets word).reverse

/-- The word that octets in memory are. -/
def load : ByteOrder → List UInt8 → UInt32
  | .bigEndian, octets => .ofNat (networkValue octets)
  | .littleEndian, octets => .ofNat (networkValue octets.reverse)

def htonl (host : ByteOrder) (word : UInt32) : UInt32 := host.load (networkOctets word)

def ntohl (host : ByteOrder) (word : UInt32) : UInt32 :=
  .ofNat (networkValue (host.store word))

end ByteOrder

@[simp] theorem networkOctets_length (word : UInt32) : (networkOctets word).length = 4 := rfl

@[simp] theorem ByteOrder.store_length (order : ByteOrder) (word : UInt32)
    : (order.store word).length = 4 := by
  cases order <;> rfl

/-- A word's octets denote the word. -/
@[simp] theorem networkValue_networkOctets (word : UInt32)
    : networkValue (networkOctets word) = word.toNat := by
  have bound := word.toNat_lt
  simp only [networkValue, networkOctets, List.foldl_cons, List.foldl_nil, UInt8.toNat_ofNat']
  omega

/-- Four octets are those of the word they denote. -/
theorem networkOctets_networkValue {octets : List UInt8} (four : octets.length = 4)
    : networkOctets (.ofNat (networkValue octets)) = octets := by
  match octets, four with
  | [first, second, third, fourth], _ =>
      have := first.toNat_lt
      have := second.toNat_lt
      have := third.toNat_lt
      have := fourth.toNat_lt
      simp only [networkOctets, networkValue, List.foldl_cons, List.foldl_nil,
        UInt32.toNat_ofNat', List.cons.injEq, and_true, ← UInt8.toNat_inj, UInt8.toNat_ofNat']
      omega

/-- Loading what was stored gives the word back. -/
@[simp] theorem ByteOrder.load_store (order : ByteOrder) (word : UInt32)
    : order.load (order.store word) = word := by
  cases order <;> simp [load, store, UInt32.ofNat_toNat]

/-- Storing what was loaded gives four octets back. -/
theorem ByteOrder.store_load (order : ByteOrder) {octets : List UInt8}
    (four : octets.length = 4)
    : order.store (order.load octets) = octets := by
  cases order with
  | bigEndian => exact networkOctets_networkValue four
  | littleEndian =>
      have reversed : octets.reverse.length = 4 := by simpa using four
      simp only [store, load, networkOctets_networkValue reversed, List.reverse_reverse]

/-- A word in network order lies in memory most significant octet first, on every host. -/
@[simp] theorem ByteOrder.store_htonl (host : ByteOrder) (word : UInt32)
    : host.store (host.htonl word) = networkOctets word :=
  host.store_load (networkOctets_length word)

/-- Octets loaded as a network word denote their network value, on every host. -/
theorem ByteOrder.ntohl_load (host : ByteOrder) {octets : List UInt8}
    (four : octets.length = 4)
    : host.ntohl (host.load octets) = .ofNat (networkValue octets) := by
  rw [ntohl, host.store_load four]

@[simp] theorem ByteOrder.ntohl_htonl (host : ByteOrder) (word : UInt32)
    : host.ntohl (host.htonl word) = word := by
  rw [htonl, host.ntohl_load (networkOctets_length word), networkValue_networkOctets,
    UInt32.ofNat_toNat]

@[simp] theorem ByteOrder.htonl_ntohl (host : ByteOrder) (word : UInt32)
    : host.htonl (host.ntohl word) = word := by
  rw [ntohl, htonl, networkOctets_networkValue (host.store_length word), host.load_store]

/-- A word that a host of the other byte order takes for one in network order comes out with
its octets reversed.
-/
theorem ByteOrder.ntohl_htonl_of_ne {encoder decoder : ByteOrder} (different : decoder ≠ encoder)
    (word : UInt32)
    : decoder.ntohl (encoder.htonl word) = .ofNat (networkValue (networkOctets word).reverse) := by
  have reversed : (networkOctets word).reverse.length = 4 := by simp
  cases encoder with
  | bigEndian =>
      cases decoder with
      | bigEndian => exact absurd rfl different
      | littleEndian => simp [htonl, ntohl, load, store, UInt32.ofNat_toNat]
  | littleEndian =>
      cases decoder with
      | bigEndian => simp [htonl, ntohl, load, store, networkOctets_networkValue reversed]
      | littleEndian => exact absurd rfl different

/-- A shifted number has no bit in common with one that fits below it. -/
theorem shiftLeft_and_eq_zero {high low shift : Nat} (small : low < 2 ^ shift)
    : high <<< shift &&& low = 0 := by
  apply Nat.eq_of_testBit_eq
  intro bit
  rw [Nat.testBit_and, Nat.testBit_shiftLeft, Nat.zero_testBit]
  by_cases above : shift ≤ bit
  · have beyond : low < 2 ^ bit := Nat.lt_of_lt_of_le small (Nat.pow_le_pow_right (by decide) above)
    rw [Nat.testBit_lt_two_pow beyond, Bool.and_false]
  · simp [above]

/-- Four octets denote less than a word's range. -/
theorem networkValue_lt {octets : List UInt8} (four : octets.length = 4)
    : networkValue octets < 2 ^ 32 := by
  match octets, four with
  | [first, second, third, fourth], _ =>
      have := first.toNat_lt
      have := second.toNat_lt
      have := third.toNat_lt
      have := fourth.toNat_lt
      simp only [networkValue, List.foldl_cons, List.foldl_nil]
      omega

end Octets

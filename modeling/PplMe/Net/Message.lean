import PplMe.Foundation.Octets

/-! Messages as they lie in a host's memory. -/

namespace PplMe.Net

open Octets

/-- The packed header: one word, kept in network order. -/
structure Header where
  bodyLength : UInt32
  deriving DecidableEq, Repr

namespace Header

/-- The header constructed for a body length in host order. -/
def ofLength (host : ByteOrder) (bodyLength : UInt32) : Header := ⟨host.htonl bodyLength⟩

/-- The length of the message body, in host order. -/
def getBodyLength (host : ByteOrder) (header : Header) : UInt32 := host.ntohl header.bodyLength

/-- The header's octets in memory, which are what goes over the wire. -/
def octets (host : ByteOrder) (header : Header) : List UInt8 := host.store header.bodyLength

/-- A header whose octets were filled in from the wire. -/
def ofOctets (host : ByteOrder) (octets : List UInt8) : Header := ⟨host.load octets⟩

end Header

structure Message where
  header : Header
  body : List UInt8
  deriving DecidableEq, Repr

namespace Message

def kMaxBodyLength : Nat := 1048576

def ofBody (host : ByteOrder) (body : List UInt8) (bodyLength : UInt32) : Message :=
  ⟨.ofLength host bodyLength, body⟩

def getBodyLength (host : ByteOrder) (message : Message) : UInt32 :=
  message.header.getBodyLength host

/-- The body buffer has the declared length. -/
def WellSized (host : ByteOrder) (message : Message) : Prop :=
  message.body.length = (message.getBodyLength host).toNat

instance (host : ByteOrder) (message : Message) : Decidable (message.WellSized host) :=
  inferInstanceAs (Decidable (_ = _))

/-- The octets of a message on the wire: the length, most significant octet first, and the
body.
-/
def frame (body : List UInt8) : List UInt8 :=
  networkOctets (.ofNat body.length) ++ body

/-- A constructed header declares the length it was given. -/
@[simp] theorem getBodyLength_ofBody (host : ByteOrder) (body : List UInt8)
    (bodyLength : UInt32)
    : (ofBody host body bodyLength).getBodyLength host = bodyLength := by
  simp [getBodyLength, ofBody, Header.ofLength, Header.getBodyLength]

/-- The octets of any header, on any host, are the network octets of what it declares. -/
theorem octets_eq (host : ByteOrder) (header : Header)
    : header.octets host = networkOctets (header.getBodyLength host) := by
  rw [Header.octets, Header.getBodyLength, ByteOrder.ntohl]
  exact (networkOctets_networkValue (host.store_length _)).symm

/-- The octets of a well-sized message are a frame. -/
theorem octets_of_wellSized {host : ByteOrder} {message : Message}
    (wellSized : message.WellSized host)
    : message.header.octets host ++ message.body = frame message.body := by
  rw [octets_eq, frame, wellSized]
  congr 1
  exact congrArg networkOctets UInt32.ofNat_toNat.symm

end Message

end PplMe.Net

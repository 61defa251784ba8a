import Mathlib.Logic.Basic
import Mathlib.Data.Prod.Basic

/-! Conversions that write a target or fail.
A conversion reports whether it succeeded and leaves its target in some state. It inverts an
encoding when the well-formed messages are the encoded values, each is read as its value, and
any other message leaves the target alone.
-/

namespace Conversions

variable {Value Message Target : Type*}

/-- A conversion undoes an encoding, all or nothing. -/
structure Inverts (convert : Message → Target → Bool × Target) (encode : Value → Message)
    (written : Value → Target) (wellFormed : Message → Prop) : Prop where
  reads : ∀ value target, convert (encode value) target = (true, written value)
  refuses : ∀ message target, ¬ wellFormed message → convert message target = (false, target)
  encoded : ∀ message, wellFormed message ↔ ∃ value, encode value = message

namespace Inverts

variable {convert : Message → Target → Bool × Target} {encode : Value → Message}
  {written : Value → Target} {wellFormed : Message → Prop}
  (inverts : Inverts convert encode written wellFormed)

include inverts

/-- Exactly the well-formed messages are accepted. -/
theorem succeeds_iff (message : Message) (target : Target)
    : (convert message target).1 = true ↔ wellFormed message := by
  constructor
  · intro succeeded
    by_contra bad
    rw [inverts.refuses message target bad] at succeeded
    cases succeeded
  · intro good
    obtain ⟨value, rfl⟩ := (inverts.encoded message).mp good
    rw [inverts.reads value target]

/-- What was read encodes to the message again. -/
theorem encode_of_succeeds {message : Message} {target : Target}
    (succeeded : (convert message target).1 = true)
    : ∃ value, convert message target = (true, written value) ∧ encode value = message := by
  obtain ⟨value, rfl⟩ := (inverts.encoded message).mp
    ((inverts.succeeds_iff message target).mp succeeded)
  exact ⟨value, inverts.reads value target, rfl⟩

/-- A failure leaves the target as it was. -/
theorem target_of_fails {message : Message} {target : Target}
    (failed : (convert message target).1 = false)
    : (convert message target).2 = target := by
  by_cases good : wellFormed message
  · rw [(inverts.succeeds_iff message target).mpr good] at failed
    cases failed
  · rw [inverts.refuses message target good]

/-- Where values are told apart in the target, what is read tells the message. -/
theorem converts_iff (distinct : Function.Injective written) {message : Message}
    {target : Target} {value : Value}
    : convert message target = (true, written value) ↔ encode value = message := by
  constructor
  · intro converted
    obtain ⟨found, read, encodes⟩ := inverts.encode_of_succeeds (congrArg Prod.fst converted)
    rw [read] at converted
    exact distinct (congrArg Prod.snd converted) ▸ encodes
  · rintro rfl
    exact inverts.reads value target

end Inverts

end Conversions

import PplMe.Net.SessionEnds

/-! Parties that have a call answered by somebody else.
Until its call is answered a party stands still, while its peer goes on. Once it is, all has been as
if the answer had been there from the start.
-/

namespace PplMe.Net

open Stepping Failures

variable {Call Answer α β : Type}

/-- A program that makes a call, or goes on without one. -/
structure CallingProgram (Call Answer β : Type) where
  toCall : Program (Option Call)
  withoutCall : Program β
  fromAnswer : Call → Answer → Program β

/-- Where the answers are known, the call may as well be answered by the program itself. -/
def CallingProgram.rest (calling : CallingProgram Call Answer β) (answers : Call → Answer)
    : Option Call → Program β
  | none => calling.withoutCall
  | some call => calling.fromAnswer call (answers call)

def CallingProgram.answeredBy (calling : CallingProgram Call Answer β) (answers : Call → Answer)
    : Program β :=
  calling.toCall >>= calling.rest answers

/-- Where a party is with such a program. -/
inductive CallStage (Call Answer β : Type) where
  | toCall (program : Program (Option Call)) (unended : ∀ outcome, program ≠ .ended outcome)
  | calling (call : Call)
  | fromAnswer (call : Call) (answer : Answer) (program : Program β)
  | withoutCall (program : Program β)

/-- The stage with this much left to do up to the call. -/
def CallingProgram.stage (calling : CallingProgram Call Answer β)
    : Program (Option Call) → CallStage Call Answer β
  | .ended (.ok (some call)) => .calling call
  | .ended (.ok none) => .withoutCall calling.withoutCall
  | .ended (.error failure) => .withoutCall (.ended (.error failure))
  | .remoteEndpoint next => .toCall (.remoteEndpoint next) (by simp)
  | .createBodyBuffer size next => .toCall (.createBodyBuffer size next) (by simp)
  | .read size next => .toCall (.read size next) (by simp)
  | .write octets next => .toCall (.write octets next) (by simp)

/-- A party at a stage, with its socket. -/
structure CallingParty (Call Answer β : Type) where
  stage : CallStage Call Answer β
  socket : Socket

-----------------------------------------------------------------------------------------
-- Operations
-----------------------------------------------------------------------------------------

namespace CallStage

/-- What has become of the program, where it has ended. -/
def outcome : CallStage Call Answer β → Option (Except SocketException β)
  | .fromAnswer _ _ (.ended outcome) | .withoutCall (.ended outcome) => some outcome
  | _ => none

def isCalling : CallStage Call Answer β → Bool
  | .calling _ => true
  | _ => false

/-- The call that has been made. -/
def call : CallStage Call Answer β → Option Call
  | .calling call | .fromAnswer call _ _ => some call
  | .toCall _ _ | .withoutCall _ => none

/-- What is left to do, where the answers are known. -/
def program (calling : CallingProgram Call Answer β) (answers : Call → Answer)
    : CallStage Call Answer β → Program β
  | .toCall program _ => program >>= calling.rest answers
  | .calling call => calling.fromAnswer call (answers call)
  | .fromAnswer _ _ program | .withoutCall program => program

/-- The call has not been answered otherwise. -/
def Agrees (answers : Call → Answer) : CallStage Call Answer β → Prop
  | .fromAnswer call answer _ => answer = answers call
  | _ => True

end CallStage

namespace CallingParty

variable (calling : CallingProgram Call Answer β) (party : CallingParty Call Answer β)

def isEnded : Bool := party.stage.outcome.isSome

/-- An exception has left the program. -/
def threw : Bool :=
  match party.stage.outcome with
  | some (.error _) => true
  | _ => false

def arrive (octets : List UInt8) : CallingParty Call Answer β :=
  { party with socket := party.socket.arrive octets }

def reset : CallingParty Call Answer β :=
  { party with socket := party.socket.resetting party.socket.operations }

def sentSince (after before : CallingParty Call Answer β) : List UInt8 :=
  after.socket.written.drop before.socket.written.length

/-- The next operation, unless it has to wait or the call is still to be answered. -/
def run (closed : Bool) : Option (CallingParty Call Answer β) :=
  match party.stage with
  | .toCall program _ =>
      let before : Party (Option Call) := ⟨program, party.socket⟩
      if before.Ready closed then
        some ⟨calling.stage before.perform.program, before.perform.socket⟩
      else
        none
  | .calling _ => none
  | .fromAnswer call answer program =>
      let before : Party β := ⟨program, party.socket⟩
      if before.Ready closed then
        some ⟨.fromAnswer call answer before.perform.program, before.perform.socket⟩
      else
        none
  | .withoutCall program =>
      let before : Party β := ⟨program, party.socket⟩
      if before.Ready closed then
        some ⟨.withoutCall before.perform.program, before.perform.socket⟩
      else
        none

/-- The call is answered. -/
def answered (answer : Answer) : Option (CallingParty Call Answer β) :=
  match party.stage with
  | .calling call =>
      some { party with stage := .fromAnswer call answer (calling.fromAnswer call answer) }
  | _ => none

/-- The party as one that knows the answers. -/
def knowing (answers : Call → Answer) : Party β :=
  ⟨party.stage.program calling answers, party.socket⟩

end CallingParty

-----------------------------------------------------------------------------------------
-- Parties that know the answers
-----------------------------------------------------------------------------------------

section Knowing

variable {calling : CallingProgram Call Answer β} {answers : Call → Answer}
  {party after : CallingParty Call Answer β} {closed : Bool}

/-- Nothing is lost where the call is reached. -/
theorem program_stage (calling : CallingProgram Call Answer β) (answers : Call → Answer)
    (program : Program (Option Call))
    : (calling.stage program).program calling answers = program >>= calling.rest answers := by
  cases program with
  | ended outcome =>
      cases outcome with
      | error failure => rfl
      | ok call => cases call <;> rfl
  | _ => rfl

/-- An operation of a party is one of the party that knows the answers. -/
theorem CallingParty.knowing_run (moved : party.run calling closed = some after)
    (agrees : after.stage.Agrees answers)
    : party.stage.Agrees answers
      ∧ (party.knowing calling answers).Ready closed
      ∧ after.knowing calling answers = (party.knowing calling answers).perform := by
  obtain ⟨stage, socket⟩ := party
  cases stage with
  | calling call => cases moved
  | toCall program unended =>
      obtain ⟨ready, same⟩ := Option.ite_none_right_eq_some.mp moved
      cases same
      refine ⟨trivial, ready.bind, ?_⟩
      refine Eq.trans ?_ (Party.perform_bind ready).symm
      exact congrArg (Party.mk · _) (program_stage calling answers _)
  | fromAnswer call answer program | withoutCall program =>
      obtain ⟨ready, same⟩ := Option.ite_none_right_eq_some.mp moved
      cases same
      exact ⟨agrees, ready, rfl⟩

/-- A party that is not calling can move if the one that knows the answers can. -/
theorem CallingParty.run_isSome (standing : party.stage.isCalling = false)
    (ready : (party.knowing calling answers).Ready closed)
    : (party.run calling closed).isSome = true := by
  obtain ⟨stage, socket⟩ := party
  cases stage with
  | calling call => cases standing
  | toCall program unended =>
      have ready : (Party.mk program socket).Ready closed := by
        cases program with
        | ended outcome => exact absurd rfl (unended outcome)
        | _ => exact ready
      exact Option.isSome_ite.mpr ready
  | fromAnswer call answer program | withoutCall program => exact Option.isSome_ite.mpr ready

/-- And it has ended just if that one has. -/
theorem CallingParty.isEnded_knowing (standing : party.stage.isCalling = false)
    : (party.knowing calling answers).isEnded = party.isEnded := by
  obtain ⟨stage, socket⟩ := party
  cases stage with
  | calling call => cases standing
  | toCall program unended =>
      cases program with
      | ended outcome => exact absurd rfl (unended outcome)
      | _ => rfl
  | fromAnswer call answer program | withoutCall program => cases program <;> rfl

/-- Who has ended has the outcome that the party with the answers has. -/
theorem CallingParty.knowing_of_outcome {outcome : Except SocketException β}
    (ended : party.stage.outcome = some outcome)
    : (party.knowing calling answers).program = .ended outcome := by
  obtain ⟨stage, socket⟩ := party
  cases stage with
  | toCall | calling => cases ended
  | fromAnswer call answer program | withoutCall program =>
      cases program with
      | ended inner => exact congrArg _ (Option.some.inj ended)
      | _ => cases ended

/-- The answer changes nothing for a party that has known it. -/
theorem CallingParty.knowing_answered {answer : Answer}
    (moved : party.answered calling answer = some after) (agrees : after.stage.Agrees answers)
    : party.stage.Agrees answers
      ∧ after.knowing calling answers = party.knowing calling answers := by
  obtain ⟨stage, socket⟩ := party
  cases stage with
  | calling call =>
      cases moved
      refine ⟨trivial, ?_⟩
      cases (agrees : answer = answers call)
      rfl
  | _ => cases moved

end Knowing

end PplMe.Net

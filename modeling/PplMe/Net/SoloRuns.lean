import PplMe.Net.ConversationRuns

/-! One side of a conversation going on by itself.
A side comes to the end of its program alone where every read finds enough, or where the other
side is closed.
-/

namespace PplMe.Net

open Stepping Octets Failures

-----------------------------------------------------------------------------------------
-- Parties that go on
-----------------------------------------------------------------------------------------

/-- Some operations one after the other, none of which has to wait. -/
inductive Party.Proceeds {α : Type} (closed : Bool) : Party α → Party α → Prop
  | refl (party : Party α) : Proceeds closed party party
  | step {party final : Party α} (ready : party.Ready closed)
    (later : Proceeds closed party.perform final)
    : Proceeds closed party final

/-- A party that goes on with another program at its end. -/
def Party.bind {α β : Type} (party : Party α) (continuation : α → Program β) : Party β :=
  ⟨party.program >>= continuation, party.socket⟩

/-- It comes to its end without waiting. -/
def Party.Completes {α : Type} (closed : Bool) (party : Party α) : Prop :=
  ∃ outcome socket, party.Proceeds closed ⟨.ended outcome, socket⟩

section Proceeding

variable {α β : Type} {closed : Bool} {party middle final : Party α}
  {continuation : α → Program β}

theorem Party.Ready.bind (ready : party.Ready closed) : (party.bind continuation).Ready closed := by
  obtain ⟨program, socket⟩ := party
  cases program with
  | ended outcome => exact ready.elim
  | _ => exact ready

theorem Party.perform_bind (ready : party.Ready closed)
    : (party.bind continuation).perform = party.perform.bind continuation := by
  obtain ⟨program, socket⟩ := party
  cases program with
  | ended outcome => exact ready.elim
  | remoteEndpoint next =>
      cases reset : socket.isReset with
      | true =>
          rw [perform_remoteEndpoint_of_isReset reset]
          exact perform_remoteEndpoint_of_isReset reset
      | false =>
          rw [perform_remoteEndpoint reset]
          exact perform_remoteEndpoint reset
  | createBodyBuffer size next => rfl
  | read size next =>
      obtain ⟨octets, after, ran⟩ := exists_read size socket
      rw [perform_read ran]
      exact perform_read ran
  | write octets next =>
      obtain ⟨sent, after, ran⟩ := exists_write octets socket
      rw [perform_write ran]
      exact perform_write ran

theorem Party.Proceeds.trans (earlier : party.Proceeds closed middle)
    (later : middle.Proceeds closed final)
    : party.Proceeds closed final := by
  induction earlier with
  | refl _ => exact later
  | step ready _ ih => exact .step ready (ih later)

theorem Party.Proceeds.bind (proceeds : party.Proceeds closed final)
    : (party.bind continuation).Proceeds closed (final.bind continuation) := by
  induction proceeds with
  | refl party => exact .refl _
  | step ready _ ih =>
      rw [← Party.perform_bind ready] at ih
      exact .step ready.bind ih

/-- What is left to do at the end does what there was to do at the beginning. -/
theorem Party.Proceeds.run (proceeds : party.Proceeds closed final)
    : final.program.run.run final.socket = party.program.run.run party.socket := by
  induction proceeds with
  | refl _ => rfl
  | step _ _ ih => exact ih.trans Party.run_perform

theorem Socket.Performed.trans {before middle after : Socket} (first : before.Performed middle)
    (second : middle.Performed after)
    : before.Performed after where
  written := first.written.trans second.written
  unread := second.unread.trans first.unread
  resetAt := second.resetAt.trans first.resetAt
  operations := Nat.le_trans first.operations second.operations
  silent reset := (second.silent (first.isReset reset)).trans (first.silent reset)

theorem Party.Proceeds.performed (proceeds : party.Proceeds closed final)
    : party.socket.Performed final.socket := by
  induction proceeds with
  | refl party => exact .refl party.socket
  | @step party _ ready _ ih => exact party.performed.trans ih

variable {program : Program α} {socket : Socket}

theorem Party.Completes.step (ready : party.Ready closed)
    (later : party.perform.Completes closed)
    : party.Completes closed := by
  obtain ⟨outcome, socket, proceeds⟩ := later
  exact ⟨outcome, socket, .step ready proceeds⟩

theorem completes_pure (value : α) : (Party.mk (pure value) socket).Completes closed :=
  ⟨_, _, .refl _⟩

/-- Two programs one after the other complete if the second does after what the first gives. -/
theorem Party.Completes.bind (first : (Party.mk program socket).Completes closed)
    (next
      : ∀ value after,
          program.run.run socket = .ok (value, after)
          → (Party.mk (continuation value) after).Completes closed)
    : (Party.mk (program >>= continuation) socket).Completes closed := by
  obtain ⟨outcome, middle, proceeds⟩ := first
  have ran := proceeds.run
  cases outcome with
  | error failure => exact ⟨.error failure, middle, proceeds.bind⟩
  | ok value =>
      obtain ⟨outcome, after, later⟩ := next value middle ran.symm
      exact ⟨outcome, after, proceeds.bind.trans later⟩

/-- Next to a closed side everything completes, by induction on the program. -/
theorem completes_of_closed (program : Program α) (socket : Socket)
    : (Party.mk program socket).Completes true := by
  induction program generalizing socket with
  | ended outcome => exact ⟨outcome, socket, .refl _⟩
  | remoteEndpoint next ih =>
      refine .step trivial ?_
      cases reset : socket.isReset with
      | true =>
          rw [perform_remoteEndpoint_of_isReset reset]
          exact ⟨_, _, .refl _⟩
      | false =>
          rw [perform_remoteEndpoint reset]
          exact ih _ _
  | createBodyBuffer size next ih => exact .step trivial (ih _)
  | read size next ih =>
      obtain ⟨octets, after, ran⟩ := exists_read size socket
      refine .step (.inr (.inr (.inr rfl))) ?_
      rw [perform_read ran]
      exact ih _ _
  | write octets next ih =>
      obtain ⟨sent, after, ran⟩ := exists_write octets socket
      refine .step trivial ?_
      rw [perform_write ran]
      exact ih _ _

/-- What completes goes on to its result. -/
theorem Party.Completes.proceeds (completes : (Party.mk program socket).Completes closed)
    {value : α} {after : Socket} (ran : program.run.run socket = .ok (value, after))
    : (Party.mk program socket).Proceeds closed ⟨pure value, after⟩ := by
  obtain ⟨outcome, final, proceeds⟩ := completes
  have same := proceeds.run.trans ran
  cases outcome with
  | error failure => cases same
  | ok other =>
      cases same
      exact proceeds

/-- So a computation on a socket leaves what was written before where it was. -/
theorem performed_of_run {value : α} {after : Socket}
    (ran : program.run.run socket = .ok (value, after))
    : socket.Performed after :=
  ((completes_of_closed program socket).proceeds ran).performed

theorem completes_remoteEndpoint
    : (Party.mk (.remoteEndpoint pure) socket).Completes closed := by
  refine .step trivial ?_
  cases reset : socket.isReset with
  | true =>
      rw [perform_remoteEndpoint_of_isReset reset]
      exact ⟨_, _, .refl _⟩
  | false =>
      rw [perform_remoteEndpoint reset]
      exact completes_pure _

theorem completes_write (octets : List UInt8)
    : (Party.mk (.write octets pure) socket).Completes closed := by
  obtain ⟨sent, after, ran⟩ := exists_write octets socket
  refine .step trivial ?_
  rw [perform_write ran]
  exact completes_pure sent

theorem completes_read {size : Nat} (enough : size ≤ socket.unread.length)
    : (Party.mk (.read size pure) socket).Completes closed := by
  obtain ⟨octets, after, ran⟩ := exists_read size socket
  refine .step (.inr (.inr (.inl enough))) ?_
  rw [perform_read ran]
  exact completes_pure octets

end Proceeding

-----------------------------------------------------------------------------------------
-- Programs of the connection that complete
-----------------------------------------------------------------------------------------

section Completing

variable {host : ByteOrder} {closed : Bool} {socket : Socket}

/-- Nobody waits for a message to be sent. -/
theorem completes_sendMessage (message : Message)
    : (Party.mk (Program.sendMessage host message) socket).Completes closed := by
  refine .bind (completes_write _) fun headerWritten _ _ => .bind ?_ fun written _ _ => ?_
  · cases headerWritten with
    | true => exact completes_write _
    | false => exact completes_pure false
  · cases written with
    | true => exact completes_pure true
    | false => exact .bind completes_remoteEndpoint fun _ _ _ => completes_pure false

/-- Nor for one to be received, once it is there or known to be too big. -/
theorem completes_receiveMessage (header : 4 ≤ socket.unread.length)
    (complete
      : declaredLength socket.unread ≤ Message.kMaxBodyLength
        → declaredLength socket.unread ≤ (socket.unread.drop 4).length)
    : (Party.mk (Program.receiveMessage host) socket).Completes closed := by
  have four : (socket.unread.take 4).length = 4 := by rw [List.length_take]; omega
  refine .bind (completes_read header) fun octets after ran => ?_
  rw [Program.run_read] at ran
  cases ran.symm.trans (read_of_le header)
  simp only [getBodyLength_ofOctets four]
  split
  · rename_i admitted
    refine .bind ⟨_, _, .step trivial (.refl _)⟩ fun _ buffered ran => ?_
    cases ran
    refine .bind (completes_read (complete admitted)) fun body _ _ => ?_
    cases body with
    | none => exact .bind completes_remoteEndpoint fun _ _ _ => completes_pure none
    | some body => exact completes_pure _
  · exact .bind completes_remoteEndpoint fun _ _ _ => completes_pure none

/-- A connection thread goes on to its end once it has its request. -/
theorem completes_service (requestHandler : RequestHandler) (lasting : socket.Lasting)
    (header : 4 ≤ socket.unread.length)
    (complete
      : declaredLength socket.unread ≤ Message.kMaxBodyLength
        → declaredLength socket.unread ≤ (socket.unread.drop 4).length)
    : (Party.mk (Program.service host requestHandler) socket).Completes closed := by
  refine .bind completes_remoteEndpoint fun _ after ran => ?_
  rw [Program.run_remoteEndpoint] at ran
  cases ran.symm.trans (remoteEndpoint_of_sound lasting.isReset)
  refine .bind (completes_receiveMessage header complete) fun received _ _ => ?_
  cases received with
  | none => exact .bind completes_remoteEndpoint fun _ _ _ => completes_pure []
  | some request =>
      refine .bind ?_ fun _ _ _ => completes_pure [request]
      refine .bind completes_remoteEndpoint fun addressed _ _ =>
        .bind completes_remoteEndpoint fun connected _ _ => ?_
      split
      · exact completes_pure ()
      · refine .bind (completes_sendMessage _) fun sent _ _ => ?_
        cases sent with
        | true => exact completes_pure ()
        | false => exact .bind completes_remoteEndpoint fun _ _ _ => completes_pure ()

end Completing

end PplMe.Net

import PplMe.Foundation.Failures

/-! Objects, and the calls made on them from their creation to their destruction.
Where the calls so far say in which state an object is, which calls it permits and what these
return, they say which calls an object can be asked for in a whole life.
-/

namespace CallHistories

open Failures

/-- An object with its calls and its destructor, each of which may fail. -/
structure Object (State Call Return Failure : Type) where
  create : State
  perform : State → Call → Except Failure (State × Return)
  destroy : State → Except Failure Unit

variable {State Call Return Failure : Type}

namespace Object

variable (object : Object State Call Return Failure)

/-- The state that calls lead to, and what they return. -/
def run : State → List Call → Except Failure (State × List Return)
  | state, [] => pure (state, [])
  | state, call :: rest => do
      let (state, value) ← object.perform state call
      let (state, values) ← run state rest
      pure (state, value :: values)

/-- What the calls of a whole life return. -/
def live (calls : List Call) : Except Failure (List Return) := do
  let (state, values) ← object.run object.create calls
  object.destroy state
  pure values

end Object

/-- Each call is permitted by the calls before it. -/
def AllPermitted (permitted : List Call → Call → Prop) (calls : List Call) : Prop :=
  ∀ before call after, calls = before ++ call :: after → permitted before call

/-- What each call returns after those before it. -/
def answers (answer : List Call → Call → Return) (history : List Call) : List Call → List Return
  | [] => []
  | call :: rest => answer history call :: answers answer (history ++ [call]) rest

/-- The calls so far determine the state, what is permitted, and what is returned. -/
structure Contract (object : Object State Call Return Failure) (summary : List Call → State)
    (permitted : List Call → Call → Prop) (answer : List Call → Call → Return)
    : Prop where
  created : summary [] = object.create
  performed
    : ∀ history call,
        permitted history call
        → object.perform (summary history) call
          = .ok (summary (history ++ [call]), answer history call)
  refused
    : ∀ history call,
        ¬ permitted history call
        → ∃ failure, object.perform (summary history) call = .error failure

section Permissions

variable {permitted : List Call → Call → Prop}

theorem allPermitted_nil : AllPermitted permitted [] := by
  intro before call after same
  cases before <;> cases same

/-- The last call is permitted by all others, and the others by those before them. -/
theorem allPermitted_concat_iff {history : List Call} {call : Call}
    : AllPermitted permitted (history ++ [call])
      ↔ AllPermitted permitted history ∧ permitted history call := by
  constructor
  · intro all
    refine ⟨fun before earlier after same => ?_, all history call [] rfl⟩
    exact all before earlier (after ++ [call]) (by simp [same])
  · rintro ⟨all, last⟩ before earlier after same
    rcases List.eq_nil_or_concat' after with rfl | ⟨middle, final, rfl⟩
    · obtain ⟨rfl, only⟩ := List.append_inj' same rfl
      exact List.head_eq_of_cons_eq only ▸ last
    · rw [← List.cons_append, ← List.append_assoc] at same
      exact all before earlier middle (List.append_inj' same rfl).1

end Permissions

section Answers

variable {answer : List Call → Call → Return}

/-- The answer to a call has the call's place, by induction on the calls before it. -/
theorem getElem?_answers (history before : List Call) (call : Call) (after : List Call)
    : (answers answer history (before ++ call :: after))[before.length]?
      = some (answer (history ++ before) call) := by
  induction before generalizing history with
  | nil => simp [answers]
  | cons first rest ih => simp [answers, ih]

end Answers

namespace Contract

variable {object : Object State Call Return Failure} {summary : List Call → State}
  {permitted : List Call → Call → Prop} {answer : List Call → Call → Return}
  (contract : Contract object summary permitted answer)

include contract

/-- Permitted calls succeed, and lead to what the history says; by induction on the calls. -/
theorem run_of_permitted {history calls : List Call}
    (all
      : ∀ before call after,
          calls = before ++ call :: after → permitted (history ++ before) call)
    : object.run (summary history) calls
      = .ok (summary (history ++ calls), answers answer history calls) := by
  induction calls generalizing history with
  | nil => simp [Object.run, answers, pure, Except.pure]
  | cons call rest ih =>
      have first := contract.performed history call (by simpa using all [] call rest rfl)
      have later := @ih (history ++ [call]) (fun before other after same => by
        simpa using all (call :: before) other after (by rw [same, List.cons_append]))
      rw [Object.run, first, ok_bind]
      simp only [later, ok_bind, answers, List.append_assoc, List.singleton_append]
      rfl

/-- Calls succeed only if each of them is permitted, by induction on the calls. -/
theorem permitted_of_run {history calls : List Call} {result : State × List Return}
    (ran : object.run (summary history) calls = .ok result)
    : ∀ before call after,
        calls = before ++ call :: after → permitted (history ++ before) call := by
  induction calls generalizing history result with
  | nil =>
      intro before call after same
      cases before <;> cases same
  | cons call rest ih =>
      obtain ⟨⟨middle, value⟩, first, later⟩ := of_bind_eq_ok ran
      have allowed : permitted history call := by
        by_contra refused
        obtain ⟨failure, failed⟩ := contract.refused history call refused
        cases failed.symm.trans first
      cases (contract.performed history call allowed).symm.trans first
      obtain ⟨⟨final, values⟩, ranRest, _⟩ := of_bind_eq_ok later
      intro before other after same
      cases before with
      | nil =>
          cases same
          simpa using allowed
      | cons first before =>
          cases same
          simpa using ih ranRest before other after rfl

/-- A whole life succeeds exactly if each call is permitted by those before it and the state
that they lead to can be destroyed. Each call returns what its history says.
-/
theorem live_eq_ok_iff {calls : List Call} {values : List Return}
    : object.live calls = .ok values
      ↔ AllPermitted permitted calls
        ∧ object.destroy (summary calls) = .ok ()
        ∧ values = answers answer [] calls := by
  constructor
  · intro lived
    obtain ⟨⟨state, returned⟩, ran, ended⟩ := of_bind_eq_ok lived
    rw [← contract.created] at ran
    have all : AllPermitted permitted calls := contract.permitted_of_run ran
    cases (@run_of_permitted _ _ _ _ _ _ _ _ contract [] calls all).symm.trans ran
    obtain ⟨_, destroyed, same⟩ := of_bind_eq_ok ended
    cases same
    exact ⟨all, destroyed, rfl⟩
  · rintro ⟨all, destroyed, rfl⟩
    have ran := @run_of_permitted _ _ _ _ _ _ _ _ contract [] calls all
    rw [List.nil_append] at ran
    rw [Object.live, ← contract.created, ran, ok_bind]
    simp only [destroyed, ok_bind]
    rfl

end Contract

end CallHistories

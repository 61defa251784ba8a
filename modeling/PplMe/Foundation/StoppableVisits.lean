import Mathlib.Data.List.Basic

/-! Visiting the items of a list with a callback that may ask to stop. -/

namespace StoppableVisits

/-- Visit items in order until a visit asks to stop. -/
def visitUntil {α σ : Type*} (visit : α → σ → Bool × σ) : List α → σ → Bool × σ
  | [], state => (false, state)
  | item :: rest, state =>
      match visit item state with
      | (true, next) => (true, next)
      | (false, next) => visitUntil visit rest next

/-- Go on visiting unless an earlier visit asked to stop. -/
def resume {α σ : Type*} (visit : α → σ → Bool × σ) (items : List α)
    : Bool × σ → Bool × σ
  | (true, state) => (true, state)
  | (false, state) => visitUntil visit items state

/-- The calls of a run, one after the other, from a state to a final one: each but the last asks
to go on, and the last asks to stop exactly if the run is done.
-/
inductive Calls {α σ : Type*} (visit : α → σ → Bool × σ) : σ → List α → Bool → σ → Prop
  | nil {state} : Calls visit state [] false state
  | stop {item state final} (stopped : visit item state = (true, final))
    : Calls visit state [item] true final
  | goOn {item state next items done final} (going : visit item state = (false, next))
    (others : Calls visit next items done final)
    : Calls visit state (item :: items) done final

section VisitUntil

variable {α σ : Type*} {visit : α → σ → Bool × σ}

@[simp] theorem resume_nil (progress : Bool × σ) : resume visit [] progress = progress := by
  obtain ⟨_ | _, _⟩ := progress <;> rfl

@[simp] theorem resume_true (items : List α) (state : σ)
    : resume visit items (true, state) = (true, state) := rfl

theorem visitUntil_cons (item : α) (rest : List α) (state : σ)
    : visitUntil visit (item :: rest) state = resume visit rest (visit item state) := by
  rw [visitUntil]
  cases visit item state with
  | mk done next => cases done <;> rfl

/-- Visiting a concatenation is visiting its parts one after the other. -/
theorem resume_append (first second : List α) (progress : Bool × σ)
    : resume visit (first ++ second) progress
      = resume visit second (resume visit first progress) := by
  obtain ⟨_ | _, state⟩ := progress
  · induction first generalizing state with
    | nil => rfl
    | cons item rest ih =>
        simp only [resume, List.cons_append, visitUntil_cons]
        generalize visit item state = next
        obtain ⟨_ | _, next⟩ := next
        · exact ih next
        · rfl
  · rfl

/-- A visit along mapped items is a visit along the items. -/
theorem resume_map {β : Type*} (f : β → α) (items : List β) (progress : Bool × σ)
    : resume visit (items.map f) progress = resume (fun item => visit (f item)) items progress := by
  obtain ⟨_ | _, state⟩ := progress
  · induction items generalizing state with
    | nil => rfl
    | cons item rest ih =>
        simp only [resume, List.map_cons, visitUntil_cons]
        generalize visit (f item) state = next
        obtain ⟨_ | _, next⟩ := next
        · exact ih next
        · rfl
  · rfl

/-- Recording visits records the list. -/
theorem visitUntil_record (items seen : List α)
    : visitUntil (fun item seen => (false, seen ++ [item])) items seen
      = (false, seen ++ items) := by
  induction items generalizing seen with
  | nil => simp [visitUntil]
  | cons item rest ih => simp [visitUntil, ih]

/-- Items are called on in order up to the one that asks to stop, or all of them, by induction
over the items.
-/
theorem calls_of_visitUntil {items : List α} {state final : σ} {done : Bool}
    (visited : visitUntil visit items state = (done, final))
    : ∃ called rest, items = called ++ rest
        ∧ Calls visit state called done final
        ∧ (done = false → rest = []) := by
  induction items generalizing state with
  | nil =>
      cases visited
      exact ⟨[], [], rfl, .nil, fun _ => rfl⟩
  | cons item items ih =>
      rw [visitUntil] at visited
      cases asked : visit item state with
      | mk stops next =>
          rw [asked] at visited
          cases stops with
          | true =>
              cases visited
              exact ⟨[item], items, rfl, .stop asked, nofun⟩
          | false =>
              obtain ⟨called, rest, rfl, calls, complete⟩ := ih visited
              exact ⟨item :: called, rest, rfl, .goOn asked calls, complete⟩

end VisitUntil

end StoppableVisits

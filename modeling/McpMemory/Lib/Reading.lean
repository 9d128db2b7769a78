/-! Programs that only read a shared state, one look at a time. Others may change the state
between two looks, so that one answer may come from several states. -/
namespace McpMemory.Reading

inductive Reading (σ α : Type) where
  | done (answer : α)
  | look (next : σ → Reading σ α)

variable {σ α β : Type}

def Reading.bind : Reading σ α → (α → Reading σ β) → Reading σ β
  | .done answer,rest => rest answer
  | .look next,rest => .look fun state => (next state).bind rest

instance : Monad (Reading σ) where
  pure := .done
  bind := .bind

def see (query : σ → α) : Reading σ α := .look fun state => .done (query state)

/- What is left of a reading once it has seen some states, the oldest first. -/
def Reading.after : Reading σ α → List σ → Reading σ α
  | .done answer,_ => .done answer
  | .look next,[] => .look next
  | .look next,state::rest => (next state).after rest

theorem afterNil {reading : Reading σ α} : reading.after [] = reading := by cases reading <;> rfl

theorem afterAppend {reading : Reading σ α} {first rest} :
    reading.after (first ++ rest) = (reading.after first).after rest := by
  induction first generalizing reading with
  | nil => cases reading <;> simp [Reading.after]
  | cons state first ih =>
    cases reading with
    | done answer => simp [Reading.after]
    | look next => exact ih

theorem seeAfter {query : σ → α} {rest : α → Reading σ β} {states answer}
    (ended : ((see query).bind rest).after states = .done answer) :
    ∃ state later, states = state::later ∧ (rest (query state)).after later = .done answer := by
  cases states with
  | nil => cases ended
  | cons state later => exact ⟨state,later,rfl,ended⟩

/- Whatever a reading sees, its answer is one of these. -/
def Ends (reading : Reading σ α) (answers : α → Prop) : Prop :=
  ∀ states answer, reading.after states = .done answer → answers answer

theorem endsDone {answers : α → Prop} {answer} (fine : answers answer) : Ends (.done answer : Reading σ α) answers := by
  intro states other ended
  cases states with
  | nil => exact Reading.done.inj ended ▸ fine
  | cons state rest => exact Reading.done.inj ended ▸ fine

theorem endsBind {reading : Reading σ α} {rest : α → Reading σ β} {answers : β → Prop}
    (later : ∀ answer, Ends (rest answer) answers) : Ends (reading.bind rest) answers := by
  induction reading with
  | done answer => exact later answer
  | look next ih =>
    intro states answer ended
    cases states with
    | nil => cases ended
    | cons state rest => exact ih state rest answer ended

end McpMemory.Reading

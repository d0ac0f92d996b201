import StateMachine.Table.View

namespace StateMachine

/-- What became of an event. -/
inductive Outcome where
  /-- No transition is declared, and nothing changed. -/
  | ignored
  /-- An override ran in place of the transition. -/
  | handled
  /-- The declared target was entered. Its entry handler may have moved the machine on. -/
  | entered (target : StateId)
deriving DecidableEq

/-- What a handler does, step by step, to a machine with a context of type `σ`, leaving notes of
type `ρ`. The last two steps call back into the table. -/
inductive Routine (σ ρ α : Type) where
  | done (result : α)
  | fail (fault : Fault)
  | getState (rest : StateId → Routine σ ρ α)
  | setState (s : StateId) (rest : Routine σ ρ α)
  | getContext (rest : σ → Routine σ ρ α)
  | setContext (c : σ) (rest : Routine σ ρ α)
  | note (n : ρ) (rest : Routine σ ρ α)
  | enter (target : StateId) (event : EventId) (rest : Routine σ ρ α)
  | step (event : EventId) (rest : Outcome → Routine σ ρ α)

namespace Routine
variable {σ ρ α β : Type}

def bind : Routine σ ρ α → (α → Routine σ ρ β) → Routine σ ρ β
  | done a, next => next a
  | fail f, _ => fail f
  | getState rest, next => getState fun s => (rest s).bind next
  | setState s rest, next => setState s (rest.bind next)
  | getContext rest, next => getContext fun c => (rest c).bind next
  | setContext c rest, next => setContext c (rest.bind next)
  | note n rest, next => note n (rest.bind next)
  | enter target e rest, next => enter target e (rest.bind next)
  | step e rest, next => step e fun d => (rest d).bind next

instance : Monad (Routine σ ρ) where
  pure := done
  bind := bind

def lift : Except Fault α → Routine σ ρ α
  | .ok a => done a
  | .error f => fail f

theorem bind_assoc (r : Routine σ ρ α) (f : α → Routine σ ρ β) {γ : Type}
    (g : β → Routine σ ρ γ) : (r.bind f).bind g = r.bind fun a => (f a).bind g := by
  induction r with
  | done a => rfl
  | fail fault => rfl
  | getState rest ih => simp only [bind]; congr 1; funext s; exact ih s
  | setState s rest ih => simp only [bind, ih]
  | getContext rest ih => simp only [bind]; congr 1; funext c; exact ih c
  | setContext c rest ih => simp only [bind, ih]
  | note n rest ih => simp only [bind, ih]
  | enter target e rest ih => simp only [bind, ih]
  | step e rest ih => simp only [bind]; congr 1; funext d; exact ih d

end Routine

/-- Runs in place of a transition, or on entry to a state, with the event that brought it about. -/
abbrev Handler (σ ρ : Type) := View → EventId → Routine σ ρ Unit

/-- A logger reads the context and a message. It leaves notes, and it may fail; it changes nothing. -/
structure LogEntry (ρ : Type) where
  notes : List ρ := []
  failure : Option String := none

abbrev Logger (σ ρ : Type) := σ → String → LogEntry ρ

end StateMachine

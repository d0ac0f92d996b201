import StateMachine.Notice
import StateMachine.Routine
import StateMachine.Trail

namespace StateMachine

inductive Role where
  | entry
  | override
  | direct
deriving DecidableEq

/-- One thing that happened in the course of a call, in the order of happening. -/
inductive Occurrence (σ ρ : Type) where
  /-- The logger was handed a message while the machine was in the given state. -/
  | logged (state : StateId) (message : String)
  | noted (note : ρ)
  | reported (notice : Notice)
  | assigned (state : StateId)
  | began (role : Role) (state : StateId) (event : EventId) (context : σ)
  /-- A handler returned. One that failed never ends. -/
  | ended (role : Role)

/-- How a call went. State and context are what it left behind, also when it failed. -/
structure Run (σ ρ α : Type) where
  result : Except Fault α
  state : StateId
  context : σ
  trail : Trail (Occurrence σ ρ)

/-- A call on one machine. -/
def Exec (σ ρ α : Type) := StateId → σ → Run σ ρ α

namespace Exec
variable {σ ρ α β : Type}

protected def pure (a : α) : Exec σ ρ α := fun s c => ⟨.ok a, s, c, .items []⟩

/-- A failure keeps what was done before it and drops what was to come. -/
protected def bind (x : Exec σ ρ α) (f : α → Exec σ ρ β) : Exec σ ρ β := fun s c =>
  match x s c with
  | ⟨.ok a, s, c, trail⟩ =>
    let run := f a s c
    { run with trail := trail ++ run.trail }
  | ⟨.error fault, s, c, trail⟩ => ⟨.error fault, s, c, trail⟩

instance : Monad (Exec σ ρ) where
  pure := Exec.pure
  bind := Exec.bind

def lift (r : Except Fault α) : Exec σ ρ α := fun s c => ⟨r, s, c, .items []⟩
def fail (fault : Fault) : Exec σ ρ α := lift (.error fault)
def state : Exec σ ρ StateId := fun s c => ⟨.ok s, s, c, .items []⟩
def context : Exec σ ρ σ := fun s c => ⟨.ok c, s, c, .items []⟩
def tell (o : Occurrence σ ρ) : Exec σ ρ Unit := fun s c => ⟨.ok (), s, c, .items [o]⟩
def assign (s : StateId) : Exec σ ρ Unit := fun _ c => ⟨.ok (), s, c, .items [.assigned s]⟩
def setContext (c : σ) : Exec σ ρ Unit := fun s _ => ⟨.ok (), s, c, .items []⟩

/-- All notes are left, then the failure follows. -/
def log (entry : LogEntry ρ) : Exec σ ρ Unit := fun s c =>
  ⟨match entry.failure with
    | none => .ok ()
    | some message => .error (.raised message), s, c, .items (entry.notes.map .noted)⟩

end Exec

namespace Run
variable {σ ρ α : Type}

/-- All that happened, in order. -/
def record (run : Run σ ρ α) : List (Occurrence σ ρ) := run.trail.toList

def notes (run : Run σ ρ α) : List ρ :=
  run.record.filterMap fun
    | .noted note => some note
    | _ => none

def notices (run : Run σ ρ α) : List Notice :=
  run.record.filterMap fun
    | .reported notice => some notice
    | _ => none

end Run
end StateMachine

import StateMachine.Run

namespace StateMachine

/-- The two calls that a handler can make on the table it belongs to. -/
structure Calls (σ ρ : Type) where
  enter : StateId → EventId → Exec σ ρ Unit
  step : EventId → Exec σ ρ Outcome

def Routine.exec {σ ρ α : Type} (calls : Calls σ ρ) : Routine σ ρ α → Exec σ ρ α
  | .done a => pure a
  | .fail f => .fail f
  | .getState rest => Exec.state >>= fun s => (rest s).exec calls
  | .setState s rest => Exec.assign s >>= fun _ => rest.exec calls
  | .getContext rest => Exec.context >>= fun c => (rest c).exec calls
  | .setContext c rest => Exec.setContext c >>= fun _ => rest.exec calls
  | .note n rest => Exec.tell (.noted n) >>= fun _ => rest.exec calls
  | .enter target e rest => calls.enter target e >>= fun _ => rest.exec calls
  | .step e rest => calls.step e >>= fun d => (rest d).exec calls

namespace Exec
variable {σ ρ : Type}

/-- Runs a handler on the machine. The view shows it what called it. -/
def invoke (view : View) (calls : Calls σ ρ) (role : Role) (handler : Handler σ ρ)
    (event : EventId) : Exec σ ρ Unit := do
  tell (.began role (← state) event (← context))
  (handler view event).exec calls
  tell (.ended role)

/-- Hands a message to a logger, if there is one. -/
def notify (logger : Option (Logger σ ρ)) (message : String) : Exec σ ρ Unit := do
  match logger with
  | none => return ()
  | some logger =>
    tell (.logged (← state) message)
    log (logger (← context) message)

end Exec

namespace Table
variable {σ ρ : Type}

def invoke (t : Table (Handler σ ρ) (Logger σ ρ)) (calls : Calls σ ρ) (role : Role)
    (handler : Handler σ ρ) (event : EventId) : Exec σ ρ Unit :=
  .invoke t.view calls role handler event

def notify (t : Table (Handler σ ρ) (Logger σ ρ)) (message : String) : Exec σ ρ Unit :=
  .notify t.logger message

/-- Moves the machine to a state. Everything that can be wrong with the call is found before the
logger hears of it, and only the entry handler comes after the move. -/
def enterWith (t : Table (Handler σ ρ) (Logger σ ρ)) (calls : Calls σ ρ) (target : StateId)
    (event : EventId) : Exec σ ρ Unit := do
  let current ← .state
  .lift (t.checkState current)
  .lift (t.checkState target)
  .lift (t.checkEvent event)
  let eventName ← .lift (t.eventName event)
  let sourceName ← .lift (t.stateName current)
  let targetName ← .lift (t.stateName target)
  t.notify s!"event {eventName} state {sourceName} -> {targetName}"
  .tell (.reported (.entered t.name eventName sourceName targetName))
  .assign target
  match t.entryHandler? target with
  | none => return ()
  | some handler => t.invoke calls .entry handler event

/-- Feeds an event to the machine. An override leaves the move to its handler. -/
def stepWith (t : Table (Handler σ ρ) (Logger σ ρ)) (calls : Calls σ ρ) (event : EventId) :
    Exec σ ρ Outcome := do
  let current ← .state
  match ← .lift (t.cell current event) with
  | none =>
    let stateName ← .lift (t.stateName current)
    let eventName ← .lift (t.eventName event)
    .tell (.reported (.ignored t.name stateName eventName))
    return .ignored
  | some position =>
    let (target, override) ← .lift (t.transitionAt position)
    match override with
    | some handler =>
      t.invoke calls .override handler event
      return .handled
    | none =>
      t.enterWith calls target event
      return .entered target

/-- The calls of a handler, if handlers may nest to the given depth below it. A level is unfolded
only when a call reaches it, so the depth may be any number. -/
def calls (t : Table (Handler σ ρ) (Logger σ ρ)) : Nat → Calls σ ρ
  | 0 => ⟨fun _ _ => .fail .nesting, fun _ => .fail .nesting⟩
  | depth + 1 =>
    ⟨fun target event => t.enterWith (t.calls depth) target event,
      fun event => t.stepWith (t.calls depth) event⟩

def enter (t : Table (Handler σ ρ) (Logger σ ρ)) (depth : Nat) (target : StateId)
    (event : EventId) : Exec σ ρ Unit :=
  t.enterWith (t.calls depth) target event

def step (t : Table (Handler σ ρ) (Logger σ ρ)) (depth : Nat) (event : EventId) :
    Exec σ ρ Outcome :=
  t.stepWith (t.calls depth) event

/-- Runs any handler as if the table had called it. -/
def run (t : Table (Handler σ ρ) (Logger σ ρ)) (depth : Nat) (handler : Handler σ ρ)
    (event : EventId) : Exec σ ρ Unit :=
  t.invoke (t.calls depth) .direct handler event

end Table
end StateMachine

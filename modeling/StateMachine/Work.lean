import StateMachine.Reading

namespace StateMachine

/-- What a record tells an observer of the whole program. -/
def notices {σ ρ : Type} (record : List (Occurrence σ ρ)) : List Notice :=
  record.filterMap fun
    | .reported notice => some notice
    | _ => none

/-- A run with its record in plain order. -/
structure Account (σ ρ α : Type) where
  result : Except Fault α
  state : StateId
  context : σ
  record : List (Occurrence σ ρ)

namespace Account
variable {σ ρ α β : Type}

/-- The same with something that happened before. -/
def after (a : Account σ ρ α) (earlier : List (Occurrence σ ρ)) : Account σ ρ α :=
  { a with record := earlier ++ a.record }

/-- What follows is left out where the first fails. -/
def andThen (a : Account σ ρ α) (f : α → StateId → σ → Account σ ρ β) : Account σ ρ β :=
  match a with
  | ⟨.ok v, s, c, record⟩ => (f v s c).after record
  | ⟨.error fault, s, c, record⟩ => ⟨.error fault, s, c, record⟩

end Account

def Run.account {σ ρ α : Type} (run : Run σ ρ α) : Account σ ρ α :=
  ⟨run.result, run.state, run.context, run.record⟩

/-- Something to be done with a machine: a call on the table, or a handler that runs for it. -/
inductive Work (σ ρ : Type) where
  | call (request : Request)
  | handle (role : Role) (handler : Handler σ ρ) (event : EventId)

def Calls.request {σ ρ : Type} (calls : Calls σ ρ) : Request → Exec σ ρ (Option Outcome)
  | .step event => do return some (← calls.step event)
  | .enter target event => do
    calls.enter target event
    return none

/-- One thing that the owner of machines does with a table. Between calls the logger may change. -/
inductive Act (σ ρ : Type) where
  | perform (machine context : Nat) (work : Work σ ρ)
  | setLogger (logger : Logger σ ρ)
  | clearLogger

/-- A handler that does the same when part of its view is left out. -/
def Handler.Blind {σ ρ : Type} (hide : View → View) (handler : Handler σ ρ) : Prop :=
  ∀ view : View, handler (hide view) = handler view

/-- The handler that runs first, if that is not for a call to decide. -/
def Work.handler? {σ ρ : Type} : Work σ ρ → Option (Handler σ ρ)
  | .call _ => none
  | .handle _ handler _ => some handler

def Work.Blind {σ ρ : Type} (hide : View → View) (work : Work σ ρ) : Prop :=
  ∀ handler, work.handler? = some handler → Handler.Blind hide handler

def Act.Blind {σ ρ : Type} (hide : View → View) : Act σ ρ → Prop
  | .perform _ _ work => work.Blind hide
  | _ => True

def Act.work? {σ ρ : Type} : Act σ ρ → Option (Nat × Nat × Work σ ρ)
  | perform machine context work => some (machine, context, work)
  | _ => none

namespace Table
variable {η κ σ ρ : Type}

/-- A built table ready for work: its handlers run, and any logger is installed. -/
def equip (t : Table η κ) (f : η → Handler σ ρ) (logger : Option (Logger σ ρ)) :
    Table (Handler σ ρ) (Logger σ ρ) :=
  { t.map f (fun _ : κ => (fun _ _ => {} : Logger σ ρ)) with logger }

/-- Handlers may nest to the given depth below the work. -/
def perform (t : Table (Handler σ ρ) (Logger σ ρ)) (depth : Nat) :
    Work σ ρ → Exec σ ρ (Option Outcome)
  | .call request => (t.calls (depth + 1)).request request
  | .handle role handler event => do
    t.invoke (t.calls depth) role handler event
    return none

def respond (t : Table (Handler σ ρ) (Logger σ ρ)) (depth : Nat) (holdings : Holdings σ)
    (machine context : Nat) (work : Work σ ρ) : Response σ ρ :=
  let run := t.perform depth work (holdings.machines machine) (holdings.contexts context)
  ⟨run.result, run.record, holdings.put machine context run.state run.context⟩

/-- The responses to what is performed. A fault ends a work and not the session. -/
def responses (t : Table (Handler σ ρ) (Logger σ ρ)) (depth : Nat) (holdings : Holdings σ) :
    List (Act σ ρ) → List (Response σ ρ)
  | [] => []
  | .perform machine context work :: rest =>
    let response := t.respond depth holdings machine context work
    response :: t.responses depth response.holdings rest
  | .setLogger logger :: rest => (t.setLogger logger).responses depth holdings rest
  | .clearLogger :: rest => t.clearLogger.responses depth holdings rest

end Table
end StateMachine

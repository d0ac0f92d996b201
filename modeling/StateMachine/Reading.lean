import StateMachine.Meaning
import StateMachine.Table.Step

namespace StateMachine

/-- A description that is followed as it stands. There is no table: every call reads the lines
again. The width has no part in that, but handlers may ask for it. -/
structure Reading (σ ρ : Type) where
  name : String
  width : CellWidth
  lines : Description (Handler σ ρ)
  logger : Option (Logger σ ρ)

namespace Reading
variable {σ ρ : Type}

def stateLimit (r : Reading σ ρ) : Nat := r.lines.topState + 1
def eventLimit (r : Reading σ ρ) : Nat := r.lines.topEvent + 1

def checkState (r : Reading σ ρ) (s : StateId) : Except Fault Unit :=
  if s.index < r.stateLimit then .ok () else .error (.stateRange r.name s r.stateLimit)

def checkEvent (r : Reading σ ρ) (e : EventId) : Except Fault Unit :=
  if e.index < r.eventLimit then .ok () else .error (.eventRange r.name e r.eventLimit)

def lookup (r : Reading σ ρ) (s : StateId) (e : EventId) : Except Fault (Option Transition) := do
  r.checkState s
  r.checkEvent e
  return (r.lines.rule? s e).map fun rule =>
    ⟨s, e, rule.target, rule.handler.isSome, rule.position⟩

def view (r : Reading σ ρ) : View where
  name := r.name
  stateLimit := r.stateLimit
  eventLimit := r.eventLimit
  width := r.width
  hasLogger := r.logger.isSome
  lines := r.lines.bare
  stateName? s := if s.index < r.stateLimit then some (r.lines.nameOf s) else none
  eventName? e := if e.index < r.eventLimit then some (r.lines.nameOf e) else none
  hasEntryHandler s := do
    r.checkState s
    return (r.lines.entryHandler? s).isSome
  lookup := r.lookup

/-- The logger hears of the move before the state changes, the entry handler runs after it. -/
def enterWith (r : Reading σ ρ) (calls : Calls σ ρ) (target : StateId) (event : EventId) :
    Exec σ ρ Unit := do
  let current ← .state
  .lift (r.checkState current)
  .lift (r.checkState target)
  .lift (r.checkEvent event)
  let eventName := r.lines.nameOf event
  let sourceName := r.lines.nameOf current
  let targetName := r.lines.nameOf target
  .notify r.logger s!"event {eventName} state {sourceName} -> {targetName}"
  .tell (.reported (.entered r.name eventName sourceName targetName))
  .assign target
  match r.lines.entryHandler? target with
  | none => return ()
  | some handler => .invoke r.view calls .entry handler event

/-- The last transition of the state on the event decides, if there is one. -/
def stepWith (r : Reading σ ρ) (calls : Calls σ ρ) (event : EventId) : Exec σ ρ Outcome := do
  let current ← .state
  .lift (r.checkState current)
  .lift (r.checkEvent event)
  match r.lines.rule? current event with
  | none =>
    .tell (.reported (.ignored r.name (r.lines.nameOf current) (r.lines.nameOf event)))
    return .ignored
  | some ⟨_, _, _, some handler⟩ =>
    .invoke r.view calls .override handler event
    return .handled
  | some ⟨_, _, target, none⟩ =>
    r.enterWith calls target event
    return .entered target

def calls (r : Reading σ ρ) : Nat → Calls σ ρ
  | 0 => ⟨fun _ _ => .fail .nesting, fun _ => .fail .nesting⟩
  | depth + 1 =>
    ⟨fun target event => r.enterWith (r.calls depth) target event,
      fun event => r.stepWith (r.calls depth) event⟩

end Reading

/-- What a caller owns: any number of machines and contexts, one of each for every call. -/
structure Holdings (σ : Type) where
  machines : Nat → StateId
  contexts : Nat → σ

inductive Request where
  | step (event : EventId)
  | enter (target : StateId) (event : EventId)

structure Turn where
  machine : Nat
  context : Nat
  request : Request

/-- All that a turn shows: its answer or fault, what happened in it, and what it leaves behind. -/
structure Response (σ ρ : Type) where
  outcome : Except Fault (Option Outcome)
  record : List (Occurrence σ ρ)
  holdings : Holdings σ

namespace Holdings
variable {σ ρ α : Type}

def put (holdings : Holdings σ) (machine context : Nat) (s : StateId) (c : σ) : Holdings σ where
  machines i := if i = machine then s else holdings.machines i
  contexts i := if i = context then c else holdings.contexts i

/-- Makes a call, and keeps the state and the context that it leaves, also when it failed. -/
def drive (holdings : Holdings σ) (turn : Turn) (answer : α → Option Outcome)
    (call : Exec σ ρ α) : Response σ ρ :=
  let run := call (holdings.machines turn.machine) (holdings.contexts turn.context)
  ⟨run.result.map answer, run.record,
    holdings.put turn.machine turn.context run.state run.context⟩

end Holdings

namespace Calls
variable {σ ρ : Type}

def respond (calls : Calls σ ρ) (holdings : Holdings σ) (turn : Turn) : Response σ ρ :=
  match turn.request with
  | .step event => holdings.drive turn some (calls.step event)
  | .enter target event => holdings.drive turn (fun _ => none) (calls.enter target event)

/-- A fault ends its turn and not the session. -/
def transcript (calls : Calls σ ρ) (holdings : Holdings σ) : List Turn → List (Response σ ρ)
  | [] => []
  | turn :: rest =>
    let response := calls.respond holdings turn
    response :: calls.transcript response.holdings rest

end Calls
end StateMachine

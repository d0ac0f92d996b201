import StateMachine.Course
import StateMachine.Log
import StateMachine.Table.Build

namespace StateMachine
variable {η κ σ ρ α : Type}

/-- A change of a log, made through one of its handles. -/
inductive LogChange where
  | record (handle : Nat) (message : String)
  | clear (handle : Nat)

def Shelf.apply (shelf : Shelf) : LogChange → Shelf
  | .record handle message => shelf.record handle message
  | .clear handle => shelf.clear handle

def LogCall.change? (handle : Nat) : LogCall → Option LogChange
  | .record message | .recordViaLogger message => some (.record handle message)
  | .clear => some (.clear handle)
  | _ => none

/-- What the handlers, loggers and notes of an estate stand for. Some notes change a log. Some loggers
belong to a log: all that they ever do is to record their message through a handle to it. -/
structure Practice (η κ σ ρ : Type) where
  handler : η → Handler σ ρ
  logger : κ → Logger σ ρ
  change? : ρ → Option LogChange
  handle? : κ → Option Nat
  records : ∀ k handle, handle? k = some handle → ∀ c message, ∃ note,
    logger k c message = ⟨[note], none⟩ ∧ change? note = some (.record handle message)

/-- A slot for a table is empty when its build failed and after the table was destroyed. -/
structure Estate (η κ σ : Type) where
  tables : Array (Option (Table η κ)) := #[]
  holdings : Holdings σ
  shelf : Shelf

/-- One thing that the owner does. Handlers may nest to the given depth below a work. -/
inductive Order (η κ σ ρ : Type) where
  | build (blueprint : Blueprint κ) (lines : Description η)
  | setLogger (slot : Nat) (logger : κ)
  | clearLogger (slot : Nat)
  | destroy (slot : Nat)
  | perform (slot machine context depth : Nat) (work : Work σ ρ)
  | put (machine : Nat) (s : StateId)
  | give (context : Nat) (c : σ)
  | log (handle : Nat) (call : LogCall)

namespace Estate

/-- At first there is no table, and as many new logs as wanted with a handle to each. -/
def start (holdings : Holdings σ) (count : Nat) : Estate η κ σ where
  holdings := holdings
  shelf := .fresh count

def table? (estate : Estate η κ σ) (slot : Nat) : Option (Table η κ) := estate.tables[slot]?.join

def setTable (estate : Estate η κ σ) (slot : Nat) (table : Option (Table η κ)) : Estate η κ σ :=
  { estate with tables := estate.tables.setIfInBounds slot table }

def run (p : Practice η κ σ ρ) (estate : Estate η κ σ) (t : Table η κ)
    (machine context depth : Nat) (work : Work σ ρ) : Run σ ρ (Option Outcome) :=
  (t.equip p.handler (t.logger.map p.logger)).perform depth work
    (estate.holdings.machines machine) (estate.holdings.contexts context)

/-- What becomes of the logs, change by change. -/
def changes (p : Practice η κ σ ρ) (estate : Estate η κ σ) : Order η κ σ ρ → List LogChange
  | .perform slot machine context depth work =>
    match estate.table? slot with
    | none => []
    | some t => (estate.run p t machine context depth work).notes.filterMap p.change?
  | .log handle call => (call.change? handle).toList
  | _ => []

/-- Does something with a table, if the slot holds one. -/
def onTable (estate : Estate η κ σ) (slot : Nat) (f : Table η κ → Estate η κ σ) : Estate η κ σ :=
  match estate.table? slot with
  | none => estate
  | some t => f t

def perform (p : Practice η κ σ ρ) (estate : Estate η κ σ) (order : Order η κ σ ρ) :
    Estate η κ σ :=
  match order with
  | .build blueprint lines =>
    { estate with tables := estate.tables.push (blueprint.build lines).1.toOption }
  | .setLogger slot logger => estate.onTable slot fun t =>
    estate.setTable slot (some (t.setLogger logger))
  | .clearLogger slot => estate.onTable slot fun t => estate.setTable slot (some t.clearLogger)
  | .destroy slot => estate.onTable slot fun _ => estate.setTable slot none
  | .perform slot machine context depth work => estate.onTable slot fun t =>
    let run := estate.run p t machine context depth work
    { estate with
      holdings := estate.holdings.put machine context run.state run.context
      shelf := (estate.changes p order).foldl Shelf.apply estate.shelf }
  | .put machine s =>
    let machines i := if i = machine then s else estate.holdings.machines i
    { estate with holdings := { estate.holdings with machines } }
  | .give context c =>
    let contexts i := if i = context then c else estate.holdings.contexts i
    { estate with holdings := { estate.holdings with contexts } }
  | .log handle call => { estate with shelf := (estate.shelf.perform handle call).2 }

def after (p : Practice η κ σ ρ) (estate : Estate η κ σ) (orders : List (Order η κ σ ρ)) :
    Estate η κ σ :=
  orders.foldl (perform p) estate

end Estate

/-- What happens in the course of a work that may concern a log. -/
inductive Happening (σ ρ : Type) where
  /-- A call to enter a state found all numbers in range. -/
  | passed (state target : StateId) (event : EventId) (context : σ)
  /-- A handler left a note. -/
  | noted (note : ρ)

/-- What happens while a handler runs, given what happens in the calls that it makes. -/
def Routine.happenings (calls : Calls σ ρ) (inner : Request → StateId → σ → List (Happening σ ρ)) :
    Routine σ ρ α → StateId → σ → List (Happening σ ρ)
  | .done _, _, _ => []
  | .fail _, _, _ => []
  | .getState rest, s, c => (rest s).happenings calls inner s c
  | .setState s' rest, _, c => rest.happenings calls inner s' c
  | .getContext rest, s, c => (rest c).happenings calls inner s c
  | .setContext c' rest, s, _ => rest.happenings calls inner s c'
  | .note n rest, s, c => .noted n :: rest.happenings calls inner s c
  | .enter target e rest, s, c =>
    let run := calls.enter target e s c
    inner (.enter target e) s c ++ match run.result with
      | .ok _ => rest.happenings calls inner run.state run.context
      | .error _ => []
  | .step e rest, s, c =>
    let run := calls.step e s c
    inner (.step e) s c ++ match run.result with
      | .ok d => (rest d).happenings calls inner run.state run.context
      | .error _ => []

namespace Table
variable (t : Table (Handler σ ρ) (Logger σ ρ)) (calls : Calls σ ρ)
  (inner : Request → StateId → σ → List (Happening σ ρ))

/-- The entry handler runs only if the logger, which hears of the move first, has not failed. -/
def entering (target : StateId) (e : EventId) (s : StateId) (c : σ) : List (Happening σ ρ) :=
  if t.breaches s (.enter target e) = [] then
    .passed s target e c :: match t.logFailure? s target e c, t.entryHandler? target with
      | none, some handler => (handler t.view e).happenings calls inner target c
      | _, _ => []
  else []

def stepping (e : EventId) (s : StateId) (c : σ) : List (Happening σ ρ) :=
  match t.cell s e with
  | .ok (some position) =>
    match t.transitionAt position with
    | .ok (_, some handler) => (handler t.view e).happenings calls inner s c
    | .ok (target, none) => t.entering calls inner target e s c
    | .error _ => []
  | _ => []

/-- What happens in the calls that handlers make, if they may nest to the given depth below them. -/
def nested : Nat → Request → StateId → σ → List (Happening σ ρ)
  | 0, _, _, _ => []
  | depth + 1, .enter target e, s, c => t.entering (t.calls depth) (nested depth) target e s c
  | depth + 1, .step e, s, c => t.stepping (t.calls depth) (nested depth) e s c

def happenings (p : Start σ ρ) : List (Happening σ ρ) :=
  match p.work with
  | .call request => t.nested (p.depth + 1) request p.state p.context
  | .handle _ handler e =>
    (handler t.view e).happenings (t.calls p.depth) (t.nested p.depth) p.state p.context

end Table

/-- What is done to logs when something happens on a table. If the logger of the table belongs to a
log, that is one record for every move; another logger may do as it likes. -/
def Practice.hears (p : Practice η κ σ ρ) (t : Table η κ) : Happening σ ρ → List LogChange
  | .passed s target e c =>
    match t.logger with
    | none => []
    | some k =>
      match p.handle? k with
      | some handle => [.record handle (t.announcement s target e)]
      | none => (p.logger k c (t.announcement s target e)).notes.filterMap p.change?
  | .noted note => (p.change? note).toList

/-- What has become of one log. -/
inductive LogEvent where
  | written (log : Nat) (message : String)
  | cleared (log : Nat)
deriving DecidableEq

def Shelf.event? (shelf : Shelf) : LogChange → Option LogEvent
  | .record handle message => shelf.handles[handle]?.map (.written · message)
  | .clear handle => shelf.handles[handle]?.map .cleared

/-- The messages written to a log since it was last cleared, oldest first. -/
def LogEvent.messages (log : Nat) (events : List LogEvent) : List String :=
  (events.reverse.takeWhile (· ≠ .cleared log)).reverse.filterMap fun
    | .written log' message => if log' = log then some message else none
    | .cleared _ => none

namespace Estate

/-- What an order means for the logs, told by what happens in its course. -/
def told (p : Practice η κ σ ρ) (estate : Estate η κ σ) : Order η κ σ ρ → List LogChange
  | .perform slot machine context depth work =>
    match estate.table? slot with
    | none => []
    | some t =>
      ((t.equip p.handler (t.logger.map p.logger)).happenings ⟨depth, work,
        estate.holdings.machines machine, estate.holdings.contexts context⟩).flatMap (p.hears t)
  | .log handle call => (call.change? handle).toList
  | _ => []

def events (p : Practice η κ σ ρ) (estate : Estate η κ σ) (order : Order η κ σ ρ) : List LogEvent :=
  (estate.told p order).filterMap estate.shelf.event?

/-- Everything that ever became of any log. -/
def chronicle (p : Practice η κ σ ρ) (estate : Estate η κ σ) :
    List (Order η κ σ ρ) → List LogEvent
  | [] => []
  | order :: rest => estate.events p order ++ (estate.perform p order).chronicle p rest

end Estate
end StateMachine

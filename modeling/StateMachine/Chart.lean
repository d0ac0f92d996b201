import StateMachine.Table.Summary
import StateMachine.Work

namespace StateMachine

/-- A map of transitions by itself. States and events are numbered from 1 on in the order of their
names, and a state leads to one target at most on each event. -/
structure Chart where
  states : List String
  events : List String
  target? : StateId → EventId → Option StateId

/-- Names with their numbers. Number 0 is left out. -/
def numbered {space : Space} (names : List String) : List (Number space × String) :=
  (names.zipIdx 1).map fun (name, n) => (.ofNat n, name)

namespace Description
variable {η : Type}

/-- Transitions that no handler overrides. -/
def moves (row : List (EventId × StateId)) : Description η :=
  row.map fun (e, target) => .next e target none

/-- A state with its transitions. -/
def block (s : StateId) (name : String) (row : List (EventId × StateId)) : Description η :=
  .state s name :: moves row

end Description

namespace Chart

def names (c : Chart) : Space → List String
  | .state => c.states
  | .event => c.events

def stateIds (c : Chart) : List StateId := (List.range' 1 c.states.length).map .ofNat
def eventIds (c : Chart) : List EventId := (List.range' 1 c.events.length).map .ofNat

/-- The events of a state that lead anywhere, in ascending order and with their targets. -/
def row (c : Chart) (s : StateId) : List (EventId × StateId) :=
  c.eventIds.filterMap fun e => (c.target? s e).map fun target => (e, target)

/-- The whole map, by state and then by event. What is said of numbers beyond the names is no part
of it. -/
def arrows (c : Chart) : List (StateId × EventId × StateId) :=
  c.stateIds.flatMap fun s => (c.row s).map fun (e, target) => (s, e, target)

/-- One cell for every pair, with a row and a column for the numbers 0. -/
def cells (c : Chart) : Nat := (c.states.length + 1) * (c.events.length + 1)

/-- Nothing is left unnamed, and no transition leads out of the chart. -/
structure Sound (c : Chart) : Prop where
  states : ∀ name ∈ c.states, name ≠ ""
  events : ∀ name ∈ c.events, name ≠ ""
  target : ∀ s ∈ c.stateIds, ∀ e ∈ c.eventIds, ∀ target, c.target? s e = some target →
    target ∈ c.stateIds

section
variable {η : Type}

def eventLabels (c : Chart) : Description η := (numbered c.events).map fun (e, name) => .event e name

/-- First all events, then state after state, each with its own transitions. -/
def description (c : Chart) : Description η :=
  c.eventLabels ++ (numbered c.states).flatMap fun (s, name) => Description.block s name (c.row s)

end

/-- What a summary says of a table, its handlers apart. The first of the names are reserved. -/
def ofSummary (summary : Summary) : Chart where
  states := summary.states.tail
  events := summary.events.tail
  target? s e :=
    (summary.transitions.find? fun x => x.source == s && x.event == e).map (·.target)

end Chart

/-- The same of a description. -/
def Description.chart {η : Type} (ds : Description η) : Chart where
  states := (List.range' 1 ds.topState).map fun n => ds.nameOf (.ofNat n : StateId)
  events := (List.range' 1 ds.topEvent).map fun n => ds.nameOf (.ofNat n : EventId)
  target? s e := (ds.rule? s e).map (·.target)

def Transition.arrow (x : Transition) : StateId × EventId × StateId :=
  (x.source, x.event, x.target)

/-- A call as it is, and a handler that is not shown any line or position. -/
def Work.unplaced {σ ρ : Type} : Work σ ρ → Work σ ρ
  | .call request => .call request
  | .handle role handler event => .handle role (fun view => handler view.unplaced) event

def Act.unplaced {σ ρ : Type} : Act σ ρ → Act σ ρ
  | .perform machine context work => .perform machine context work.unplaced
  | .setLogger logger => .setLogger logger
  | .clearLogger => .clearLogger

end StateMachine

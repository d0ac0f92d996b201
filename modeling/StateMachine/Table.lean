import StateMachine.Cells
import StateMachine.Extent
import StateMachine.Fault
import StateMachine.Line

namespace StateMachine

/-- What is known of one state. -/
structure StateSlot (η : Type) where
  name : String := ""
  handler : Option η := none

/-- A compiled description. Machines are state numbers that callers own: the table holds nothing of
them and drives any number. Only its logger changes after the build. -/
structure Table (η κ : Type) where
  name : String
  lines : Array (Line η)
  extent : Extent
  cells : Cells
  states : Array (StateSlot η)
  events : Array String
  logger : Option κ

namespace Table
variable {η κ : Type}

/-- The same table with other handlers and another logger in the same places. -/
def map {θ ν : Type} (f : η → θ) (g : κ → ν) (t : Table η κ) : Table θ ν where
  name := t.name
  lines := t.lines.map (·.map f)
  extent := t.extent
  cells := t.cells
  states := t.states.map fun slot => ⟨slot.name, slot.handler.map f⟩
  events := t.events
  logger := t.logger.map g

def stateLimit (t : Table η κ) : Nat := t.extent.states.toNat
def eventLimit (t : Table η κ) : Nat := t.extent.events.toNat
def width (t : Table η κ) : CellWidth := t.cells.width

def setLogger (t : Table η κ) (logger : κ) : Table η κ := { t with logger := some logger }
def clearLogger (t : Table η κ) : Table η κ := { t with logger := none }
def hasLogger (t : Table η κ) : Bool := t.logger.isSome

def checkState (t : Table η κ) (s : StateId) : Except Fault Unit :=
  if s.index < t.stateLimit then .ok () else .error (.stateRange t.name s t.stateLimit)

def checkEvent (t : Table η κ) (e : EventId) : Except Fault Unit :=
  if e.index < t.eventLimit then .ok () else .error (.eventRange t.name e t.eventLimit)

/-- An element that ought to be there. -/
def element {α : Type} (xs : Array α) (i : Nat) : Except Fault α :=
  match xs[i]? with
  | some x => .ok x
  | none => .error (.defect (.bounds i xs.size))

def slot (t : Table η κ) (s : StateId) : Except Fault (StateSlot η) := do
  t.checkState s
  element t.states s.index

def stateName (t : Table η κ) (s : StateId) : Except Fault String :=
  return (← t.slot s).name

def eventName (t : Table η κ) (e : EventId) : Except Fault String := do
  t.checkEvent e
  element t.events e.index

def hasEntryHandler (t : Table η κ) (s : StateId) : Except Fault Bool :=
  return (← t.slot s).handler.isSome

def stateName? (t : Table η κ) (s : StateId) : Option String :=
  t.states[s.index]?.map (·.name)

def eventName? (t : Table η κ) (e : EventId) : Option String := t.events[e.index]?

def stateNames (t : Table η κ) : List String := t.states.toList.map (·.name)
def eventNames (t : Table η κ) : List String := t.events.toList

def entryHandler? (t : Table η κ) (s : StateId) : Option η :=
  t.states[s.index]?.bind (·.handler)

/-- Row by row: all events of a state lie together. -/
def cell (t : Table η κ) (s : StateId) (e : EventId) : Except Fault (Option Nat) := do
  t.checkState s
  t.checkEvent e
  (t.cells.get (s.index * t.eventLimit + e.index)).mapError .defect

def outline (t : Table η κ) : List (String × String) :=
  [("name", Text.quoted t.name), ("state_limit", toString t.stateLimit),
    ("event_limit", toString t.eventLimit), ("index_width", t.width.debugText),
    ("has_logger", Text.bool t.hasLogger)]

def debugText (t : Table η κ) : String := Text.record "TransitionTable" t.outline
def debugLines (t : Table η κ) : String := Text.recordLines "TransitionTable" t.outline

end Table
end StateMachine

import StateMachine.Description
import StateMachine.Table.Lookup

namespace StateMachine

/-- What a handler may ask of the table that called it. The handlers in the lines are not shown. -/
structure View where
  name : String
  stateLimit : Nat
  eventLimit : Nat
  width : CellWidth
  hasLogger : Bool
  lines : Description Unit
  stateName? : StateId → Option String
  eventName? : EventId → Option String
  hasEntryHandler : StateId → Except Fault Bool
  lookup : StateId → EventId → Except Fault (Option Transition)

def Table.view {η κ : Type} (t : Table η κ) : View where
  name := t.name
  stateLimit := t.stateLimit
  eventLimit := t.eventLimit
  width := t.width
  hasLogger := t.hasLogger
  lines := Description.bare t.lines.toList
  stateName? := t.stateName?
  eventName? := t.eventName?
  hasEntryHandler := t.hasEntryHandler
  lookup := t.lookup

def Transition.unplaced (x : Transition) : Transition := { x with position := 0 }

namespace View

/-- Whether there is a logger is left out. -/
def unlogged (view : View) : View := { view with hasLogger := false }

/-- The width of the cells is left out. -/
def unsized (view : View) : View := { view with width := .narrow }

/-- The first stop is left out, and all lines that come after it. -/
def untilStop (view : View) : View := { view with lines := view.lines.active }

/-- The lines are left out, and the positions of the transitions among them. -/
def unplaced (view : View) : View :=
  { view with
    lines := []
    lookup := fun s e => (view.lookup s e).map (Option.map Transition.unplaced) }

end View
end StateMachine

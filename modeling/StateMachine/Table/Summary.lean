import StateMachine.Json
import StateMachine.Table.Lookup

namespace StateMachine

def Transition.toJson (t : Transition) : Json :=
  .ofFields [("from", .ofNat t.source.index), ("event", .ofNat t.event.index),
    ("next", .ofNat t.target.index), ("overridden", .bool t.overridden),
    ("position", .ofNat t.position)]

/-- A snapshot of the layout of a table, free of handlers and loggers. -/
structure Summary where
  name : String
  stateLimit : Nat
  eventLimit : Nat
  cellWidth : CellWidth
  states : List String
  events : List String
  entryHandlers : List StateId
  transitions : List Transition
deriving DecidableEq

def Table.summary {η κ : Type} (t : Table η κ) : Except Fault Summary :=
  return {
    name := t.name
    stateLimit := t.stateLimit
    eventLimit := t.eventLimit
    cellWidth := t.width
    states := t.stateNames
    events := t.eventNames
    entryHandlers := ← t.entryStates
    transitions := ← t.transitions }

namespace Summary

def debugText (s : Summary) : String :=
  Text.record "TableSummary" [("name", Text.quoted s.name),
    ("state_limit", toString s.stateLimit), ("event_limit", toString s.eventLimit),
    ("index_width", s.cellWidth.debugText), ("states", Text.list (s.states.map Text.quoted)),
    ("events", Text.list (s.events.map Text.quoted)),
    ("entry_handlers", Text.list (s.entryHandlers.map (·.debugText))),
    ("transitions", Text.list (s.transitions.map (·.debugText)))]

def toJson (s : Summary) : Json :=
  .ofFields [("name", .ofString s.name), ("state_limit", .ofNat s.stateLimit),
    ("event_limit", .ofNat s.eventLimit), ("index_width", .ofString s.cellWidth.name),
    ("states", .array (s.states.map .ofString)), ("events", .array (s.events.map .ofString)),
    ("entry_handlers", .array (s.entryHandlers.map (.ofNat ·.index))),
    ("transitions", .array (s.transitions.map (·.toJson)))]

end Summary
end StateMachine

import StateMachine.Number
import StateMachine.Text.Outline
import StateMachine.Text.Quoted

namespace StateMachine

/-- A single violation of the rules of a description. Positions count its lines from 0. -/
inductive Problem where
  /-- Number 0 where a declared number is needed. The kind is that of the line. -/
  | reservedNumber (position : Nat) (kind : String)
  /-- A transition before any state was selected. -/
  | noContext (position : Nat)
  | undeclaredEvent (position : Nat) (event : EventId)
  | targetOutOfRange (position : Nat) (state : StateId) (limit : Nat)
  | overCapacity (required capacity : Nat)
  | unnamedState (state : StateId)
  | unnamedEvent (event : EventId)
  /-- The earlier declaration is the closest one before it. -/
  | repeated (position earlier : Nat) (state : StateId) (event : EventId)
deriving DecidableEq

namespace Problem

def message : Problem → String
  | reservedNumber position kind => s!"descriptor {position} ({kind}) uses reserved number 0"
  | noContext position => s!"descriptor {position} declares a transition with no current state"
  | undeclaredEvent position event =>
    s!"descriptor {position} uses {event.text} before it is declared"
  | targetOutOfRange position state limit =>
    s!"descriptor {position} targets {state.text}, outside 1..{limit}"
  | overCapacity required capacity =>
    s!"table needs {required} index slots but the index width allows {capacity}"
  | unnamedState state => s!"{state.text} is within the table but never labelled"
  | unnamedEvent event => s!"{event.text} is within the table but never labelled"
  | repeated position earlier state event =>
    s!"descriptor {position} redeclares the transition from {state.text} on {event.text} " ++
      s!"(first at {earlier})"

def debugText : Problem → String
  | reservedNumber position kind => Text.record "Reserved0Used"
      [("position", toString position), ("kind", Text.quoted kind)]
  | noContext position => Text.record "MissingCurrentState" [("position", toString position)]
  | undeclaredEvent position event => Text.record "EventUndeclared"
      [("position", toString position), ("event", event.debugText)]
  | targetOutOfRange position state limit => Text.record "StateOutOfRange"
      [("position", toString position), ("state", state.debugText), ("limit", toString limit)]
  | overCapacity required capacity => Text.record "DescriptorCapacityExceeded"
      [("required", toString required), ("capacity", toString capacity)]
  | unnamedState state => Text.record "UnnamedState" [("state", state.debugText)]
  | unnamedEvent event => Text.record "UnnamedEvent" [("event", event.debugText)]
  | repeated position earlier state event => Text.record "DuplicateTransition"
      [("position", toString position), ("first", toString earlier),
        ("state", state.debugText), ("event", event.debugText)]

end Problem
end StateMachine

import StateMachine.Text.Outline

namespace StateMachine

/-- Sizes of an accepted description: one more than the largest state and event number, and the
number of active lines. The sizes are machine words; their product need not be one. -/
structure Extent where
  states : UInt64
  events : UInt64
  lines : Nat
deriving DecidableEq

namespace Extent

/-- The product of two words, if it is a word. -/
def product? (a b : UInt64) : Option UInt64 :=
  if b = 0 ∨ a ≤ UInt64.ofNat (UInt64.size - 1) / b then some (a * b) else none

def cells (x : Extent) : Option UInt64 := product? x.states x.events

def debugText (x : Extent) : String :=
  Text.record "Limits" [("state_limit", toString x.states.toNat),
    ("event_limit", toString x.events.toNat), ("descriptor_count", toString x.lines)]

end Extent
end StateMachine

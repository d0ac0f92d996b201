import StateMachine.Number

namespace StateMachine

/-- A broken promise between the two passes over a description. Validation is there to rule each of
them out. -/
inductive Defect where
  | cellCount
  /-- A position that a cell cannot hold. -/
  | position (position : Nat)
  | bounds (index size : Nat)
  | unnamed (index : Nat)
  /-- A cell that leads to a line which is no transition. -/
  | noTransition (position : Nat)
deriving DecidableEq

/-- Why a call on a table ended early. -/
inductive Fault where
  | stateRange (table : String) (state : StateId) (limit : Nat)
  | eventRange (table : String) (event : EventId) (limit : Nat)
  /-- Raised by a handler or by a logger. -/
  | raised (message : String)
  /-- Handlers called each other more deeply than was allowed for. -/
  | nesting
  | defect (d : Defect)
deriving DecidableEq

namespace Defect

def message : Defect → String
  | cellCount => "cell count overflowed after validation"
  | position p => s!"descriptor {p} does not fit the index width"
  | bounds i size => s!"index {i} out of bounds of {size}"
  | unnamed i => s!"number {i} left unnamed after validation"
  | noTransition p => s!"cell leads to descriptor {p}, which is no transition"

end Defect

namespace Fault

def message : Fault → String
  | stateRange table s limit => s!"table '{table}': {s.text} out of range (limit {limit})"
  | eventRange table e limit => s!"table '{table}': {e.text} out of range (limit {limit})"
  | raised message => message
  | nesting => "handlers nested too deeply"
  | defect d => d.message

end Fault
end StateMachine

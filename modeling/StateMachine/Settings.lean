import StateMachine.Text.Outline

namespace StateMachine

/-- Bytes that a cell of the table takes: one or two. -/
inductive CellWidth where
  | narrow
  | wide
deriving DecidableEq, Inhabited

/-- What becomes of a second transition from one state on one event. -/
inductive RepeatPolicy where
  | reject
  | lastWins
deriving DecidableEq, Inhabited

/-- What can be chosen for a single build. -/
structure Settings where
  width : CellWidth := .narrow
  repeats : RepeatPolicy := .reject
deriving DecidableEq, Inhabited

namespace CellWidth

/-- The width bounds the number of cells, and also the positions that a cell can hold. -/
def capacity : CellWidth → Nat
  | narrow => 256
  | wide => 65536

def name : CellWidth → String
  | narrow => "narrow"
  | wide => "wide"

def debugText : CellWidth → String
  | narrow => "Narrow"
  | wide => "Wide"

end CellWidth

namespace RepeatPolicy

def name : RepeatPolicy → String
  | reject => "reject"
  | lastWins => "last_write_wins"

def debugText : RepeatPolicy → String
  | reject => "Reject"
  | lastWins => "LastWriteWins"

end RepeatPolicy

def Settings.debugText (s : Settings) : String :=
  Text.record "BuildOptions"
    [("index_width", s.width.debugText), ("duplicates", s.repeats.debugText)]

end StateMachine

import StateMachine.Fault
import StateMachine.Settings

namespace StateMachine

/-- The cells of a table, each with the position of a transition. A cell that holds 0 is empty:
no transition stands first in a description, for none has a source there. -/
inductive Cells where
  | narrow (cells : Array UInt8)
  | wide (cells : Array UInt16)
deriving DecidableEq

namespace Cells

def empty (width : CellWidth) (size : Nat) : Cells :=
  match width with
  | .narrow => .narrow (Array.replicate size 0)
  | .wide => .wide (Array.replicate size 0)

def width : Cells → CellWidth
  | narrow _ => .narrow
  | wide _ => .wide

def size : Cells → Nat
  | narrow cells => cells.size
  | wide cells => cells.size

/-- The stored number, 0 for an empty cell. -/
def raw? : Cells → Nat → Option Nat
  | narrow cells, cell => cells[cell]?.map UInt8.toNat
  | wide cells, cell => cells[cell]?.map UInt16.toNat

def get (b : Cells) (cell : Nat) : Except Defect (Option Nat) :=
  match b.raw? cell with
  | none => .error (.bounds cell b.size)
  | some 0 => .ok none
  | some (position + 1) => .ok (some (position + 1))

/-- Position 0 is refused, and so is one beyond the width. -/
def set (b : Cells) (cell position : Nat) : Except Defect Cells :=
  if position = 0 ∨ b.width.capacity ≤ position then .error (.position position)
  else if b.size ≤ cell then .error (.bounds cell b.size)
  else match b with
    | narrow cells => .ok (.narrow (cells.setIfInBounds cell (UInt8.ofNat position)))
    | wide cells => .ok (.wide (cells.setIfInBounds cell (UInt16.ofNat position)))

end Cells
end StateMachine

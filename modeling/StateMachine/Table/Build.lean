import StateMachine.Notice
import StateMachine.Scan
import StateMachine.Table

namespace StateMachine

/-- A partly filled table: the second pass over a description keeps no more than the selected state
and the three containers. -/
structure Filling (η : Type) where
  context : StateId := .reserved
  cells : Cells
  states : Array (StateSlot η)
  events : Array String

namespace Filling
variable {η : Type}

def start (width : CellWidth) (cells : Nat) (extent : Extent) : Filling η where
  cells := .empty width cells
  states := Array.replicate extent.states.toNat {}
  events := Array.replicate extent.events.toNat ""

/-- Changes one element, which has to be there. -/
def update {α : Type} (xs : Array α) (i : Nat) (f : α → α) : Except Defect (Array α) :=
  if i < xs.size then .ok (xs.modify i f) else .error (.bounds i xs.size)

/-- Later lines overwrite what earlier lines left in the same place. -/
def read (filling : Filling η) (eventLimit : Nat) (d : Line η) (position : Nat) :
    Except Defect (Filling η) :=
  let ⟨context, cells, states, events⟩ := filling
  match d with
  | .stop => .ok ⟨context, cells, states, events⟩
  | .state s name => do
    let states ← update states s.index fun slot => { slot with name }
    return ⟨s, cells, states, events⟩
  | .onEntry s handler => do
    let states ← update states s.index fun slot => { slot with handler := some handler }
    return ⟨s, cells, states, events⟩
  | .source s => .ok ⟨s, cells, states, events⟩
  | .event e name => do
    let events ← update events e.index fun _ => name
    return ⟨context, cells, states, events⟩
  | .next e _ _ => do
    let cells ← cells.set (context.index * eventLimit + e.index) position
    return ⟨context, cells, states, events⟩

def ofLines (width : CellWidth) (cells : Nat) (extent : Extent) (ds : Description η) :
    Except Defect (Filling η) :=
  ds.zipIdx.foldlM (fun filling (d, position) => filling.read extent.events.toNat d position)
    (start width cells extent)

/-- Gives the reserved numbers their name and requires every other number to have one. -/
def close (filling : Filling η) : Except Defect (Filling η) := do
  let states ← update filling.states 0 fun slot => { slot with name := reservedName }
  let events ← update filling.events 0 fun _ => reservedName
  if let some i := states.findIdx? (·.name.isEmpty) then throw (.unnamed i)
  if let some i := events.findIdx? (·.isEmpty) then throw (.unnamed i)
  return { filling with states, events }

end Filling

/-- Why a build gave no table. -/
inductive BuildError where
  | rejected (table : String) (problems : List Problem)
  | defect (d : Defect)
deriving DecidableEq

namespace BuildError

def message : BuildError → String
  | rejected table problems =>
    s!"transition table '{table}' rejected with {problems.length} descriptor error(s)"
  | defect d => d.message

def debugText : BuildError → String
  | rejected table problems => Text.record "InvalidDescriptors"
      [("table", Text.quoted table), ("errors", Text.list (problems.map (·.debugText)))]
  | defect d => d.message

end BuildError

/-- What a build is asked for, apart from the description. -/
structure Blueprint (κ : Type) where
  name : String
  settings : Settings := {}
  logger : Option κ := none

namespace Blueprint
variable {η κ : Type}

def withSettings (b : Blueprint κ) (settings : Settings) : Blueprint κ := { b with settings }

def withWidth (b : Blueprint κ) (width : CellWidth) : Blueprint κ :=
  { b with settings := { b.settings with width } }

def withRepeats (b : Blueprint κ) (repeats : RepeatPolicy) : Blueprint κ :=
  { b with settings := { b.settings with repeats } }

def withLogger (b : Blueprint κ) (logger : κ) : Blueprint κ := { b with logger := some logger }

/-- The second pass. It relies on the extent, and reports where that turns out wrong. -/
def fill (b : Blueprint κ) (ds : Description η) (extent : Extent) :
    Except Defect (Table η κ) := do
  let some cells := extent.cells | throw .cellCount
  let filling ← Filling.ofLines b.settings.width cells.toNat extent (ds.take extent.lines)
  let filling ← filling.close
  return {
    name := b.name
    lines := ds.toArray
    extent
    cells := filling.cells
    states := filling.states
    events := filling.events
    logger := b.logger }

/-- Either every line is in order and there is a table ready for use, or all problems are reported.
One notice tells which. -/
def build (b : Blueprint κ) (ds : Description η) : Except BuildError (Table η κ) × List Notice :=
  match ds.check b.settings with
  | .error problems => (.error (.rejected b.name problems), [.rejected b.name problems.length])
  | .ok extent =>
    match b.fill ds extent with
    | .ok table => (.ok table, [.built b.name extent])
    | .error d => (.error (.defect d), [])

end Blueprint
end StateMachine

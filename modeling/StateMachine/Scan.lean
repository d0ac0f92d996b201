import Std.Data.TreeMap
import StateMachine.Description
import StateMachine.Extent
import StateMachine.Problem
import StateMachine.Settings

namespace StateMachine

/-- A transition as written: the state selected where it stands, if any, and what it says. -/
structure Declared where
  position : Nat
  source : Option StateId
  event : EventId
  target : StateId

/-- The pair of a state and an event as one number, for look-up. Both are below 2^16. -/
def pairKey (s : StateId) (e : EventId) : Nat := s.index * 65536 + e.index

/-- The cells have to fit the width. A product that is no word fits none, and is reported as the
largest word. -/
def Extent.overCapacity? (x : Extent) (capacity : Nat) : Option Problem :=
  match x.cells with
  | some cells =>
    if cells.toNat ≤ capacity then none else some (.overCapacity cells.toNat capacity)
  | none => some (.overCapacity (UInt64.size - 1) capacity)

/-- The latest position of every pair declared so far, and the repetitions found on the way. -/
structure Repetitions where
  latest : Std.TreeMap Nat Nat := {}
  problems : Array Problem := #[]

namespace Repetitions

/-- A transition without a source, or on event 0, belongs to no pair. -/
def read (r : Repetitions) (d : Declared) : Repetitions :=
  match d.source with
  | none => r
  | some s =>
    if d.event.isReserved then r
    else
      let key := pairKey s d.event
      match r.latest[key]? with
      | none => { r with latest := r.latest.insert key d.position }
      | some earlier =>
        { latest := r.latest.insert key d.position
          problems := r.problems.push (.repeated d.position earlier s d.event) }

end Repetitions

/-- What is known after some lines of a description. A map sends each labelled number to whether its
last label has a name. Only problems that need no later line are collected here. -/
structure Scan where
  context : Option StateId := none
  topState : Nat := 0
  topEvent : Nat := 0
  states : Std.TreeMap Nat Bool := {}
  events : Std.TreeMap Nat Bool := {}
  declared : Array Declared := #[]
  problems : Array Problem := #[]

namespace Scan

def report (scan : Scan) (p : Problem) : Scan := { scan with problems := scan.problems.push p }

/-- Number 0 selects nothing, and the transitions that follow it have no source. -/
def select (scan : Scan) (position : Nat) (kind : String) (s : StateId) : Scan :=
  if s.isReserved then { scan.report (.reservedNumber position kind) with context := none }
  else { scan with context := some s, topState := max scan.topState s.index }

def labelState (scan : Scan) (s : StateId) (name : String) : Scan :=
  if s.isReserved then scan
  else { scan with states := scan.states.insert s.index (!name.isEmpty) }

def labelEvent (scan : Scan) (position : Nat) (kind : String) (e : EventId) (name : String) :
    Scan :=
  if e.isReserved then scan.report (.reservedNumber position kind)
  else { scan with
    topEvent := max scan.topEvent e.index
    events := scan.events.insert e.index (!name.isEmpty) }

/-- An event has to be labelled before a transition uses it. -/
def useEvent (scan : Scan) (position : Nat) (kind : String) (e : EventId) : Scan :=
  if e.isReserved then scan.report (.reservedNumber position kind)
  else if scan.events.contains e.index then scan
  else scan.report (.undeclaredEvent position e)

def requireContext (scan : Scan) (position : Nat) : Scan :=
  if scan.context.isSome then scan else scan.report (.noContext position)

def declare (scan : Scan) (position : Nat) (e : EventId) (target : StateId) : Scan :=
  { scan with declared := scan.declared.push ⟨position, scan.context, e, target⟩ }

def read {η : Type} (scan : Scan) (d : Line η) (position : Nat) : Scan :=
  match d with
  | .stop => scan
  | .state s name => (scan.select position d.kind s).labelState s name
  | .onEntry s _ | .source s => scan.select position d.kind s
  | .event e name => scan.labelEvent position d.kind e name
  | .next e target _ =>
    ((scan.useEvent position d.kind e).requireContext position).declare position e target

def ofLines {η : Type} (ds : Description η) : Scan :=
  ds.zipIdx.foldl (fun scan (d, position) => scan.read d position) {}

def extent (scan : Scan) (lines : Nat) : Extent where
  states := UInt64.ofNat (scan.topState + 1)
  events := UInt64.ofNat (scan.topEvent + 1)
  lines := lines

/-- A target may be labelled after the transition that names it, so targets wait for the end. -/
def wrongTargets (scan : Scan) : List Problem :=
  scan.declared.toList.filterMap fun d =>
    if d.target.isReserved || scan.topState < d.target.index then
      some (.targetOutOfRange d.position d.target (scan.topState + 1))
    else none

/-- The last transition has the largest position that a cell must hold. -/
def lateTransition? (scan : Scan) (capacity : Nat) : Option Problem :=
  scan.declared.back?.bind fun last =>
    if last.position < capacity then none else some (.overCapacity (last.position + 1) capacity)

/-- Numbers from 1 to the largest that have no name. -/
def unnamed (named : Std.TreeMap Nat Bool) (top : Nat) : List Nat :=
  (List.range' 1 top).filter fun n => !named.getD n false

end Scan

/-- Every problem of a description in the order of discovery: line by line, then targets, sizes,
names and repetitions. -/
def Description.problems {η : Type} (ds : Description η) (settings : Settings) : List Problem :=
  let scan := Scan.ofLines ds.active
  let capacity := settings.width.capacity
  scan.problems.toList ++ scan.wrongTargets
    ++ ((scan.extent ds.active.length).overCapacity? capacity).toList
    ++ (scan.lateTransition? capacity).toList
    ++ (Scan.unnamed scan.states scan.topState).map (fun n => .unnamedState (.ofNat n))
    ++ (Scan.unnamed scan.events scan.topEvent).map (fun n => .unnamedEvent (.ofNat n))
    ++ match settings.repeats with
      | .reject => (scan.declared.foldl Repetitions.read {}).problems.toList
      | .lastWins => []

def Description.extent {η : Type} (ds : Description η) : Extent :=
  (Scan.ofLines ds.active).extent ds.active.length

/-- A description is accepted when it has no problem at all. -/
def Description.check {η : Type} (ds : Description η) (settings : Settings) :
    Except (List Problem) Extent :=
  match ds.problems settings with
  | [] => .ok ds.extent
  | problems => .error problems

end StateMachine

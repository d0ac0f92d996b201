import StateMachine.Meaning
import StateMachine.Problem
import StateMachine.Settings

namespace StateMachine.Description
variable {η : Type}

/-- Whether a line before a position labels an event. -/
def labelsBefore (ds : Description η) (e : EventId) (position : Nat) : Bool :=
  (ds.active.take position).any fun d => (d.label? .event).any fun (e', _) => e' == e

/-- What is wrong with a line by itself and the lines before it. -/
def lineViolations (ds : Description η) (d : Line η) (position : Nat) : List Problem :=
  match d with
  | .stop => []
  | .state s _ | .onEntry s _ | .source s =>
    if s.isReserved then [.reservedNumber position d.kind] else []
  | .event e _ => if e.isReserved then [.reservedNumber position d.kind] else []
  | .next e _ _ =>
    (if e.isReserved then [.reservedNumber position d.kind]
      else if ds.labelsBefore e position then [] else [.undeclaredEvent position e])
    ++ if (ds.contextAt position).isSome then [] else [.noContext position]

def targetViolations (ds : Description η) : List Problem :=
  ds.rules.filterMap fun r =>
    if r.target.isReserved || ds.topState < r.target.index then
      some (.targetOutOfRange r.position r.target (ds.topState + 1))
    else none

/-- One cell for every pair of a state and an event, number 0 included. -/
def cellViolations (ds : Description η) (capacity : Nat) : List Problem :=
  let required := (ds.topState + 1) * (ds.topEvent + 1)
  if capacity < required then [.overCapacity required capacity] else []

def positionViolations (ds : Description η) (capacity : Nat) : List Problem :=
  match ds.rules.getLast? with
  | some last =>
    if capacity ≤ last.position then [.overCapacity (last.position + 1) capacity] else []
  | none => []

/-- Numbers from 1 to the top whose last label is missing or empty. -/
def unnamed (ds : Description η) (space : Space) (top : Nat) : List (Number space) :=
  ((List.range' 1 top).map Number.ofNat).filter fun n => (ds.label? n).getD "" == ""

/-- The transitions before a position that are declared for the same pair. -/
def earlierRules (ds : Description η) (s : StateId) (e : EventId) (position : Nat) :
    List (Rule η) :=
  ds.rules.filter fun r =>
    r.position < position && r.event == e && ds.contextAt r.position == some s

/-- The repetition that a transition is, told by the closest earlier one. -/
def repeatViolation? (ds : Description η) (r : Rule η) : Option Problem :=
  match ds.contextAt r.position with
  | none => none
  | some s =>
    if r.event.isReserved then none
    else (ds.earlierRules s r.event r.position).getLast?.map fun earlier =>
      .repeated r.position earlier.position s r.event

def repeatViolations (ds : Description η) : List Problem :=
  ds.rules.filterMap ds.repeatViolation?

def policyViolations (ds : Description η) : RepeatPolicy → List Problem
  | .reject => ds.repeatViolations
  | .lastWins => []

/-- All problems, rule after rule. -/
def violations (ds : Description η) (settings : Settings) : List Problem :=
  let capacity := settings.width.capacity
  ds.active.zipIdx.flatMap (fun (d, position) => ds.lineViolations d position)
    ++ ds.targetViolations ++ ds.cellViolations capacity ++ ds.positionViolations capacity
    ++ (ds.unnamed .state ds.topState).map .unnamedState
    ++ (ds.unnamed .event ds.topEvent).map .unnamedEvent
    ++ ds.policyViolations settings.repeats

end StateMachine.Description

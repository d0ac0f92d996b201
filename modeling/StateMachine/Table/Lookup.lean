import StateMachine.Table

namespace StateMachine

/-- A declared transition as its cell shows it. The target is entered without further ado only if
the transition is not overridden. -/
structure Transition where
  source : StateId
  event : EventId
  target : StateId
  overridden : Bool
  position : Nat
deriving DecidableEq

namespace Transition

def debugText (t : Transition) : String :=
  Text.record "TransitionRef" [("from", t.source.debugText), ("event", t.event.debugText),
    ("next", t.target.debugText), ("overridden", Text.bool t.overridden),
    ("position", toString t.position)]

end Transition

namespace Table
variable {η κ : Type}

/-- Target and override of the transition at a position. -/
def transitionAt (t : Table η κ) (position : Nat) : Except Fault (StateId × Option η) :=
  match t.lines[position]? with
  | some (.next _ target handler) => .ok (target, handler)
  | _ => .error (.defect (.noTransition position))

/-- The transition declared for a pair. Nothing is set in motion. -/
def lookup (t : Table η κ) (s : StateId) (e : EventId) : Except Fault (Option Transition) := do
  match ← t.cell s e with
  | none => return none
  | some position =>
    let (target, handler) ← t.transitionAt position
    return some ⟨s, e, target, handler.isSome, position⟩

/-- Row 0 and column 0 hold no transition and are not among the pairs. -/
def pairs (t : Table η κ) : List (StateId × EventId) :=
  (List.range' 1 (t.stateLimit - 1)).flatMap fun s =>
    (List.range' 1 (t.eventLimit - 1)).map fun e => (.ofNat s, .ofNat e)

/-- Every declared transition, ordered by state and then by event. -/
def transitions (t : Table η κ) : Except Fault (List Transition) := do
  let found ← t.pairs.mapM fun (s, e) => t.lookup s e
  return found.filterMap id

/-- The states that have an entry handler, in ascending order. -/
def entryStates (t : Table η κ) : Except Fault (List StateId) := do
  let found ← (List.range' 1 (t.stateLimit - 1)).mapM fun n => do
    let s : StateId := .ofNat n
    return if ← t.hasEntryHandler s then some s else none
  return found.filterMap id

end Table
end StateMachine

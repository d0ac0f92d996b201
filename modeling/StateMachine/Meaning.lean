import StateMachine.Description

namespace StateMachine

/-- The state that a line selects, number 0 included. -/
def Line.selected? {η : Type} : Line η → Option StateId
  | .state s _ | .onEntry s _ | .source s => some s
  | _ => none

/-- The number that a line labels in a space, and the name it gives. -/
def Line.label? {η : Type} : (space : Space) → Line η → Option (Number space × String)
  | .state, .state s name => some (s, name)
  | .event, .event e name => some (e, name)
  | _, _ => none

/-- A transition of a description: where it stands and what it says. -/
structure Rule (η : Type) where
  position : Nat
  event : EventId
  target : StateId
  handler : Option η

/-- The transition that a line declares, if it declares one. -/
def Line.rule? {η : Type} (d : Line η) (position : Nat) : Option (Rule η) :=
  match d with
  | .next e target handler => some ⟨position, e, target, handler⟩
  | _ => none

namespace Description
variable {η : Type}

/-- The state for which a transition at a position is declared. Number 0 is no such state. -/
def contextAt (ds : Description η) (position : Nat) : Option StateId :=
  ((ds.active.take position).reverse.findSome? Line.selected?).filter (!·.isReserved)

/-- All transitions in order. -/
def rules (ds : Description η) : List (Rule η) :=
  ds.active.zipIdx.filterMap fun (d, position) => d.rule? position

/-- The transition of a pair is the last one that is declared for it. -/
def rule? (ds : Description η) (s : StateId) (e : EventId) : Option (Rule η) :=
  ds.rules.reverse.find? fun r => r.event == e && ds.contextAt r.position == some s

def entryHandler? (ds : Description η) (s : StateId) : Option η :=
  ds.active.reverse.findSome? fun
    | .onEntry s' handler => if s' = s then some handler else none
    | _ => none

/-- The last label of a number names it. -/
def label? {space : Space} (ds : Description η) (n : Number space) : Option String :=
  (ds.active.reverse.filterMap (Line.label? space)).findSome? fun (m, name) =>
    if m = n then some name else none

def nameOf {space : Space} (ds : Description η) (n : Number space) : String :=
  if n.isReserved then reservedName else (ds.label? n).getD ""

/-- The largest state that any line selects. -/
def topState (ds : Description η) : Nat :=
  (ds.active.filterMap Line.selected?).foldl (fun top s => max top s.index) 0

/-- The largest event that any line labels. -/
def topEvent (ds : Description η) : Nat :=
  (ds.active.filterMap (Line.label? .event)).foldl (fun top (e, _) => max top e.index) 0

end Description
end StateMachine

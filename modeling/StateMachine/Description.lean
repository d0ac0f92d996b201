import StateMachine.Line

namespace StateMachine

/-- Lines in order. Only those before the first stop take part in a build. -/
abbrev Description (η : Type) := List (Line η)

namespace Description
variable {η : Type}

def active (ds : Description η) : Description η := ds.takeWhile (!·.isStop)

/-- The lines without their handlers. All that is left of a handler is its place. -/
def bare (ds : Description η) : Description Unit := ds.map (Line.map fun _ => ())

/-- Labels for every number of a range, named by a letter and the number. -/
def labels (space : Space) (letter : String) (first last : Nat) : Description η :=
  (List.range' first (last + 1 - first)).map fun n =>
    .label (.ofNat n : Number space) (letter ++ toString n)

/-- Transitions on every event of a range, all to one state. -/
def nexts (first last : Nat) (target : StateId) : Description η :=
  (List.range' first (last + 1 - first)).map fun n => .next (.ofNat n) target none

/-- A cycle through a range of states, every move on the same event. -/
def ring (first last : Nat) (e : EventId) : Description η :=
  (List.range' first (last + 1 - first)).flatMap fun n =>
    [.source (.ofNat n), .next e (.ofNat (if n = last then first else n + 1)) none]

def sources (s : StateId) (count : Nat) : Description η := List.replicate count (.source s)

end Description
end StateMachine

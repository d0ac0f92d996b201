import StateMachine.Description

namespace StateMachine

/-- A declared member of an enumeration: its identifier, its number and its label. -/
structure Member (space : Space) where
  identifier : String
  id : Number space
  label : String
deriving DecidableEq

/-- States or events declared together, each with a number of its own. -/
structure Enumeration (space : Space) where
  members : List (Member space)
  distinct : (members.map (·.id)).Nodup := by decide

namespace Enumeration
variable {space : Space}

/-- The label lines of all members, in the order of declaration. -/
def labels {η : Type} (e : Enumeration space) : Description η :=
  e.members.map fun m => .label m.id m.label

/-- The member with a number, if one was declared. -/
def ofNumber? (e : Enumeration space) (id : Number space) : Option (Member space) :=
  e.members.find? (·.id == id)

/-- From a number back to its member. A number that no member has is returned as it is. -/
def convert (e : Enumeration space) (id : Number space) : Except (Number space) (Member space) :=
  match e.ofNumber? id with
  | some m => .ok m
  | none => .error id

end Enumeration
end StateMachine

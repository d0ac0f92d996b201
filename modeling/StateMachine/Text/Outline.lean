namespace StateMachine.Text

/-- A constructor applied to unnamed parts. -/
def tuple (name : String) (parts : List String) : String :=
  name ++ "(" ++ ", ".intercalate parts ++ ")"

/-- A constructor with named parts, on one line. -/
def record (name : String) (fields : List (String × String)) : String :=
  name ++ " \x7b " ++ ", ".intercalate (fields.map fun (field, value) => field ++ ": " ++ value)
    ++ " \x7d"

/-- The same with a line for each part, for parts that fill one line themselves. -/
def recordLines (name : String) (fields : List (String × String)) : String :=
  name ++ " \x7b\n" ++ String.join (fields.map fun (field, value) =>
    "    " ++ field ++ ": " ++ value ++ ",\n") ++ "\x7d"

def list (items : List String) : String := "[" ++ ", ".intercalate items ++ "]"

def option : Option String → String
  | none => "None"
  | some value => tuple "Some" [value]

def bool (b : Bool) : String := if b then "true" else "false"

end StateMachine.Text

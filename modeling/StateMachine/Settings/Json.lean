import StateMachine.Json.Parser
import StateMachine.Settings

namespace StateMachine

/-- A named alternative is its name, or an object with the name as only key and null as value. -/
def Json.alternative? : Json → Option String
  | .string name => name
  | .object [(name, .null)] => name
  | _ => none

def CellWidth.ofName? (name : String) : Option CellWidth :=
  [CellWidth.narrow, .wide].find? (·.name == name)

def RepeatPolicy.ofName? (name : String) : Option RepeatPolicy :=
  [RepeatPolicy.reject, .lastWins].find? (·.name == name)

def CellWidth.ofJson? (j : Json) : Option CellWidth := j.alternative?.bind ofName?
def RepeatPolicy.ofJson? (j : Json) : Option RepeatPolicy := j.alternative?.bind ofName?

namespace Settings

/-- A setting may be left out, and may not be given twice. -/
def given? {α : Type} (read : Json → Option α) (default : α) : List Json → Option α
  | [] => some default
  | [j] => read j
  | _ => none

/-- An object with the settings by name, in which foreign members are skipped, or an array with the
first settings in order. -/
def ofJson? : Json → Option Settings
  | .object members =>
    if Json.keysDenote members then do
      let width ← given? CellWidth.ofJson? .narrow (Json.values members "index_width")
      let repeats ← given? RepeatPolicy.ofJson? .reject (Json.values members "duplicates")
      return { width, repeats }
    else none
  | .array items =>
    if items.length ≤ 2 then do
      let width ← given? CellWidth.ofJson? .narrow (items.take 1)
      let repeats ← given? RepeatPolicy.ofJson? .reject (items.drop 1)
      return { width, repeats }
    else none
  | _ => none

def parse? (s : String) : Option Settings := (Json.parse? s).bind ofJson?

def toJson (s : Settings) : Json :=
  .ofFields [("index_width", .ofString s.width.name),
    ("duplicates", .ofString s.repeats.name)]

end Settings

end StateMachine

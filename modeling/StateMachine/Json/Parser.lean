import StateMachine.Json.Lexer

namespace StateMachine.Json

/-- An array or object that is still open, with what it holds so far in reverse. -/
inductive Frame where
  | array (items : List Json)
  | object (members : List (Option String × Json))
  /-- An object whose last key waits for its value. -/
  | member (members : List (Option String × Json)) (key : Option String)

/-- What may come next. -/
inductive Place where
  | value
  /-- Right after an array was opened, where it may also end. -/
  | firstItem
  | firstKey
  | key
  | colon
  | separator
  | finished (v : Json)

/-- The open arrays and objects, innermost first, and what may come next. -/
structure Parser where
  frames : List Frame := []
  place : Place := .value

namespace Parser

/-- A complete value goes to the innermost frame. -/
def deliver (frames : List Frame) (v : Json) : Option Parser :=
  match frames with
  | [] => some ⟨[], .finished v⟩
  | .array items :: rest => some ⟨.array (v :: items) :: rest, .separator⟩
  | .member members key :: rest => some ⟨.object ((key, v) :: members) :: rest, .separator⟩
  | .object _ :: _ => none

def value (frames : List Frame) : Token → Option Parser
  | .null => deliver frames .null
  | .bool b => deliver frames (.bool b)
  | .number literal => deliver frames (.number literal)
  | .string text => deliver frames (.string text)
  | .openArray => some ⟨.array [] :: frames, .firstItem⟩
  | .openObject => some ⟨.object [] :: frames, .firstKey⟩
  | _ => none

/-- Ends the innermost frame, if the token is the one that ends it. -/
def close (frames : List Frame) : Token → Option Parser
  | .closeArray =>
    match frames with
    | .array items :: rest => deliver rest (.array items.reverse)
    | _ => none
  | .closeObject =>
    match frames with
    | .object members :: rest => deliver rest (.object members.reverse)
    | _ => none
  | _ => none

def key (frames : List Frame) : Token → Option Parser
  | .string text =>
    match frames with
    | .object members :: rest => some ⟨.member members text :: rest, .colon⟩
    | _ => none
  | _ => none

def push (parser : Parser) (token : Token) : Option Parser :=
  let frames := parser.frames
  match parser.place, token with
  | .value, token => value frames token
  | .firstItem, .closeArray => close frames .closeArray
  | .firstItem, token => value frames token
  | .firstKey, .closeObject => close frames .closeObject
  | .firstKey, token => key frames token
  | .key, token => key frames token
  | .colon, .colon => some ⟨frames, .value⟩
  | .separator, .comma =>
    match frames with
    | .array _ :: _ => some ⟨frames, .value⟩
    | .object _ :: _ => some ⟨frames, .key⟩
    | _ => none
  | .separator, token => close frames token
  | _, _ => none

def finish (parser : Parser) : Option Json :=
  match parser.place with
  | .finished v => some v
  | _ => none

end Parser

/-- The value that a text denotes as a whole. Nesting is not limited. -/
def parse? (s : String) : Option Json := do
  let parser ← (← tokens? s).foldlM Parser.push {}
  parser.finish

/-- The values of all members with a key, in order. -/
def values (members : List (Option String × Json)) (key : String) : List Json :=
  (members.filter (·.1 == some key)).map (·.2)

/-- Whether every key denotes a text. -/
def keysDenote (members : List (Option String × Json)) : Bool := members.all (·.1.isSome)

end StateMachine.Json

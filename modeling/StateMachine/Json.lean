namespace StateMachine

/-- A JSON value as written. A number is its literal. A string or a key is `none` if it is well
formed but denotes no text, because a surrogate escape in it lacks its partner. -/
inductive Json where
  | null
  | bool (b : Bool)
  | number (literal : String)
  | string (text : Option String)
  | array (items : List Json)
  | object (members : List (Option String × Json))

namespace Json

def ofNat (n : Nat) : Json := number (toString n)
def ofString (s : String) : Json := string (some s)
def ofFields (fields : List (String × Json)) : Json :=
  object (fields.map fun (key, value) => (some key, value))

/-- Only quotes, backslashes and controls below U+0020 are escaped. -/
def escape (c : Char) : List Char :=
  match c with
  | '"' => ['\\', '"']
  | '\\' => ['\\', '\\']
  | '\x08' => ['\\', 'b']
  | '\x0c' => ['\\', 'f']
  | '\n' => ['\\', 'n']
  | '\r' => ['\\', 'r']
  | '\t' => ['\\', 't']
  | c =>
    if c.toNat < 0x20 then
      ['\\', 'u', '0', '0', Nat.digitChar (c.toNat / 16), Nat.digitChar (c.toNat % 16)]
    else [c]

def quote (s : String) : List Char := '"' :: s.toList.flatMap escape ++ ['"']

mutual

/-- The text without any blank. A string that denotes no text is written empty. -/
def chars : Json → List Char
  | null => ['n', 'u', 'l', 'l']
  | bool true => ['t', 'r', 'u', 'e']
  | bool false => ['f', 'a', 'l', 's', 'e']
  | number literal => literal.toList
  | string text => quote (text.getD "")
  | array [] => ['[', ']']
  | array (value :: rest) => '[' :: value.chars ++ charsAfterItem rest
  | object [] => ['\x7b', '\x7d']
  | object ((key, value) :: rest) =>
    '\x7b' :: quote (key.getD "") ++ ':' :: value.chars ++ charsAfterMember rest

def charsAfterItem : List Json → List Char
  | [] => [']']
  | value :: rest => ',' :: value.chars ++ charsAfterItem rest

def charsAfterMember : List (Option String × Json) → List Char
  | [] => ['\x7d']
  | (key, value) :: rest =>
    ',' :: quote (key.getD "") ++ ':' :: value.chars ++ charsAfterMember rest

end

def render (j : Json) : String := String.ofList j.chars

end Json
end StateMachine

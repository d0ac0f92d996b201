import StateMachine.Text.Numbered

namespace StateMachine.Text

/-- Lower-case hexadecimal digits, none of them leading zeros. -/
def hex (n : Nat) : String := String.ofList (Nat.toDigits 16 n)

/-- One character inside quotes. The apostrophe needs no escape there. -/
def escape (c : Char) : String :=
  match c with
  | '\x00' => "\\0"
  | '\t' => "\\t"
  | '\r' => "\\r"
  | '\n' => "\\n"
  | '"' => "\\\""
  | '\\' => "\\\\"
  | c => if isNumbered c then "\\u\x7b" ++ hex c.toNat ++ "\x7d" else c.toString

/-- Text between double quotes, each character either shown or escaped. -/
def quoted (s : String) : String :=
  "\"" ++ s.foldl (fun out c => out ++ escape c) "" ++ "\""

end StateMachine.Text

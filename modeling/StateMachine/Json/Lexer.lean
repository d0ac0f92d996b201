import StateMachine.Json

namespace StateMachine.Json

inductive Token where
  | openObject
  | closeObject
  | openArray
  | closeArray
  | colon
  | comma
  | null
  | bool (b : Bool)
  | number (literal : String)
  | string (text : Option String)

/-- Part of a string as written: a character, or a code unit given by its number. -/
inductive Piece where
  | char (c : Char)
  | unit (n : Nat)

def isHigh (n : Nat) : Bool := 0xd800 ≤ n && n < 0xdc00
def isLow (n : Nat) : Bool := 0xdc00 ≤ n && n < 0xe000

/-- The text of the pieces, after the text already known. A high surrogate needs a low one right
after it, and the two are one character; any other surrogate denotes nothing. -/
def text? (known : List Char) : List Piece → Option String
  | [] => some (String.ofList known.reverse)
  | .char c :: rest => text? (c :: known) rest
  | .unit h :: .unit l :: rest =>
    if isHigh h && isLow l then
      text? (.ofNat (0x10000 + (h - 0xd800) * 0x400 + (l - 0xdc00)) :: known) rest
    else if isHigh h || isLow h then none
    else text? (.ofNat h :: known) (.unit l :: rest)
  | .unit n :: rest => if isHigh n || isLow n then none else text? (.ofNat n :: known) rest

/-- How far into a number a literal has come. -/
inductive Phase where
  | sign
  | zero
  | whole
  | point
  | fraction
  | exponent
  | exponentSign
  | power

namespace Phase

/-- What the next character makes of the literal, if it belongs to it at all. -/
def next? (phase : Phase) (c : Char) : Option Phase :=
  match phase with
  | sign => if c = '0' then some zero else if c.isDigit then some whole else none
  | zero => afterWhole c
  | whole => if c.isDigit then some whole else afterWhole c
  | point => if c.isDigit then some fraction else none
  | fraction =>
    if c.isDigit then some fraction else if c = 'e' || c = 'E' then some exponent else none
  | exponent =>
    if c = '+' || c = '-' then some exponentSign else if c.isDigit then some power else none
  | exponentSign | power => if c.isDigit then some power else none
where
  afterWhole (c : Char) : Option Phase :=
    if c = '.' then some point else if c = 'e' || c = 'E' then some exponent else none

def isComplete : Phase → Bool
  | zero | whole | fraction | power => true
  | _ => false

end Phase

/-- What the characters read last are part of. Lists are in reverse. -/
inductive Mode where
  | between
  | word (missing : List Char) (token : Token)
  | number (phase : Phase) (literal : List Char)
  | string (pieces : List Piece)
  | escape (pieces : List Piece)
  | unit (pieces : List Piece) (missing value : Nat)

/-- The tokens read so far, in reverse, and where the text stands. -/
structure Lexer where
  tokens : List Token := []
  mode : Mode := .between

namespace Lexer

def emit (lexer : Lexer) (token : Token) : Lexer := ⟨token :: lexer.tokens, .between⟩

def isBlank (c : Char) : Bool := c = ' ' || c = '\n' || c = '\t' || c = '\r'

/-- The first character of a token tells its kind. -/
def start (lexer : Lexer) (c : Char) : Option Lexer :=
  match c with
  | '\x7b' => some (lexer.emit .openObject)
  | '\x7d' => some (lexer.emit .closeObject)
  | '[' => some (lexer.emit .openArray)
  | ']' => some (lexer.emit .closeArray)
  | ':' => some (lexer.emit .colon)
  | ',' => some (lexer.emit .comma)
  | '"' => some { lexer with mode := .string [] }
  | 'n' => some { lexer with mode := .word ['u', 'l', 'l'] .null }
  | 't' => some { lexer with mode := .word ['r', 'u', 'e'] (.bool true) }
  | 'f' => some { lexer with mode := .word ['a', 'l', 's', 'e'] (.bool false) }
  | '-' => some { lexer with mode := .number .sign ['-'] }
  | c =>
    if isBlank c then some lexer
    else (Phase.sign.next? c).map fun phase => { lexer with mode := .number phase [c] }

def escaped? : Char → Option Char
  | '"' => some '"'
  | '\\' => some '\\'
  | '/' => some '/'
  | 'b' => some '\x08'
  | 'f' => some '\x0c'
  | 'n' => some '\n'
  | 'r' => some '\r'
  | 't' => some '\t'
  | _ => none

def hexValue? (c : Char) : Option Nat :=
  if c.isDigit then some (c.toNat - 48)
  else if 'a' ≤ c && c ≤ 'f' then some (c.toNat - 87)
  else if 'A' ≤ c && c ≤ 'F' then some (c.toNat - 55)
  else none

def push (lexer : Lexer) (c : Char) : Option Lexer :=
  match lexer.mode with
  | .between => lexer.start c
  | .word [] _ => none
  | .word (letter :: missing) token =>
    if c ≠ letter then none
    else if missing.isEmpty then some (lexer.emit token)
    else some { lexer with mode := .word missing token }
  | .number phase literal =>
    match phase.next? c with
    | some phase => some { lexer with mode := .number phase (c :: literal) }
    | none =>
      if phase.isComplete then (lexer.emit (.number (String.ofList literal.reverse))).start c
      else none
  | .string pieces =>
    if c = '"' then some (lexer.emit (.string (text? [] pieces.reverse)))
    else if c = '\\' then some { lexer with mode := .escape pieces }
    else if c.toNat < 0x20 then none
    else some { lexer with mode := .string (.char c :: pieces) }
  | .escape pieces =>
    if c = 'u' then some { lexer with mode := .unit pieces 4 0 }
    else (escaped? c).map fun c => { lexer with mode := .string (.char c :: pieces) }
  | .unit pieces missing value =>
    (hexValue? c).map fun digit =>
      let value := value * 16 + digit
      if missing ≤ 1 then { lexer with mode := .string (.unit value :: pieces) }
      else { lexer with mode := .unit pieces (missing - 1) value }

/-- A text may end between tokens and after a complete number, nowhere else. -/
def finish (lexer : Lexer) : Option (List Token) :=
  match lexer.mode with
  | .between => some lexer.tokens.reverse
  | .number phase literal =>
    if phase.isComplete then
      some (lexer.emit (.number (String.ofList literal.reverse))).tokens.reverse
    else none
  | _ => none

end Lexer

/-- The tokens of a text, if it divides into tokens and blanks. -/
def tokens? (s : String) : Option (List Token) := do
  let lexer ← s.toList.foldlM Lexer.push {}
  lexer.finish

end StateMachine.Json

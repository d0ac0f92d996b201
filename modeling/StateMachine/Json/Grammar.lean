import StateMachine.Json.Lexer

namespace StateMachine.Json

def IsBlank (text : List Char) : Prop := ∀ c ∈ text, Lexer.isBlank c = true

/-- Blanks may stand on both sides. -/
def Padded (p : List Char → Prop) (text : List Char) : Prop :=
  ∃ before inner after, IsBlank before ∧ p inner ∧ IsBlank after ∧
    text = before ++ (inner ++ after)

def IsDigits (text : List Char) : Prop := text ≠ [] ∧ ∀ c ∈ text, c.isDigit = true

/-- No other digit follows a leading zero. -/
def IsWhole (text : List Char) : Prop :=
  text = ['0'] ∨ IsDigits text ∧ text.head? ≠ some '0'

def IsFraction (text : List Char) : Prop :=
  text = [] ∨ ∃ digits, IsDigits digits ∧ text = '.' :: digits

def IsPower (text : List Char) : Prop :=
  text = [] ∨ ∃ letter sign digits, (letter = 'e' ∨ letter = 'E') ∧
    (sign = [] ∨ sign = ['+'] ∨ sign = ['-']) ∧ IsDigits digits ∧
    text = letter :: (sign ++ digits)

def IsNumber (text : List Char) : Prop :=
  ∃ sign whole fraction power, (sign = [] ∨ sign = ['-']) ∧ IsWhole whole ∧
    IsFraction fraction ∧ IsPower power ∧ text = sign ++ (whole ++ (fraction ++ power))

/-- The ways to write a part of a string: as it is, with a letter, or with four digits. -/
inductive Piece.Spelled : Piece → List Char → Prop
  | plain {c : Char} (hquote : c ≠ '"') (hbackslash : c ≠ '\\') (hcontrol : 0x20 ≤ c.toNat) :
    Spelled (.char c) [c]
  | letter {c name : Char} (h : Lexer.escaped? name = some c) : Spelled (.char c) ['\\', name]
  | digits {c₁ c₂ c₃ c₄ : Char} {n₁ n₂ n₃ n₄ : Nat} (h₁ : Lexer.hexValue? c₁ = some n₁)
    (h₂ : Lexer.hexValue? c₂ = some n₂) (h₃ : Lexer.hexValue? c₃ = some n₃)
    (h₄ : Lexer.hexValue? c₄ = some n₄) :
    Spelled (.unit (((n₁ * 16 + n₂) * 16 + n₃) * 16 + n₄)) ['\\', 'u', c₁, c₂, c₃, c₄]

def SpelledPieces : List Piece → List Char → Prop
  | [], text => text = []
  | piece :: rest, text =>
    ∃ head tail, piece.Spelled head ∧ SpelledPieces rest tail ∧ text = head ++ tail

/-- A string that denotes no text has spellings too. -/
def SpelledString (s : Option String) (text : List Char) : Prop :=
  ∃ pieces inner, SpelledPieces pieces inner ∧ text? [] pieces = s ∧
    text = '"' :: (inner ++ ['"'])

/-- A key and a value, each of them padded. -/
def SpelledMember (key : Option String) (p : List Char → Prop) (text : List Char) : Prop :=
  ∃ name inner, Padded (SpelledString key) name ∧ Padded p inner ∧ text = name ++ ':' :: inner

mutual

/-- The texts of a value, from its first character to its last. -/
def Spelled : Json → List Char → Prop
  | null, text => text = ['n', 'u', 'l', 'l']
  | bool true, text => text = ['t', 'r', 'u', 'e']
  | bool false, text => text = ['f', 'a', 'l', 's', 'e']
  | number literal, text => text = literal.toList ∧ IsNumber text
  | string s, text => SpelledString s text
  | array [], text => ∃ inner, IsBlank inner ∧ text = '[' :: (inner ++ [']'])
  | array (v :: rest), text =>
    ∃ head tail, Padded v.Spelled head ∧ SpelledAfterItem rest tail ∧ text = '[' :: (head ++ tail)
  | object [], text => ∃ inner, IsBlank inner ∧ text = '\x7b' :: (inner ++ ['\x7d'])
  | object ((key, v) :: rest), text =>
    ∃ head tail, SpelledMember key v.Spelled head ∧ SpelledAfterMember rest tail ∧
      text = '\x7b' :: (head ++ tail)

def SpelledAfterItem : List Json → List Char → Prop
  | [], text => text = [']']
  | v :: rest, text =>
    ∃ head tail, Padded v.Spelled head ∧ SpelledAfterItem rest tail ∧ text = ',' :: (head ++ tail)

def SpelledAfterMember : List (Option String × Json) → List Char → Prop
  | [], text => text = ['\x7d']
  | (key, v) :: rest, text =>
    ∃ head tail, SpelledMember key v.Spelled head ∧ SpelledAfterMember rest tail ∧
      text = ',' :: (head ++ tail)

end

end StateMachine.Json

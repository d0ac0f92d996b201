import StateMachine.Text.Blank

namespace StateMachine

/-- A day of the Gregorian calendar, also before its introduction. Year 0 comes before year 1. -/
structure Date where
  year : Int
  month : Nat
  day : Nat
deriving DecidableEq

namespace Date

def isLeap (year : Int) : Bool := year % 4 = 0 && (year % 100 ≠ 0 || year % 400 = 0)

def monthLength (year : Int) (month : Nat) : Nat :=
  if month = 2 then (if isLeap year then 29 else 28)
  else if month = 4 || month = 6 || month = 9 || month = 11 then 30
  else 31

/-- The years that a timestamp can name. -/
def isValid (d : Date) : Bool :=
  -262143 ≤ d.year && d.year ≤ 262142 && 1 ≤ d.month && d.month ≤ 12
    && 1 ≤ d.day && d.day ≤ monthLength d.year d.month

def next (d : Date) : Date :=
  if d.day < monthLength d.year d.month then { d with day := d.day + 1 }
  else if d.month < 12 then ⟨d.year, d.month + 1, 1⟩
  else ⟨d.year + 1, 1, 1⟩

def previous (d : Date) : Date :=
  if 1 < d.day then { d with day := d.day - 1 }
  else if 1 < d.month then ⟨d.year, d.month - 1, monthLength d.year (d.month - 1)⟩
  else ⟨d.year - 1, 12, 31⟩

end Date

/-- A moment in universal time. A leap second counts as second 59 and is told apart by its flag. -/
structure Timestamp where
  date : Date
  second : Nat
  leap : Bool
  nanosecond : Nat
deriving DecidableEq

namespace Timestamp

/-- Reads from the front of a text. -/
abbrev Reader := StateT (List Char) Option

namespace Reader

def blanks : Reader Unit := modify (·.dropWhile Text.isBlank)

def char (accepted : Char → Bool) : Reader Char := do
  match ← get with
  | c :: rest => if accepted c then set rest; return c else failure
  | [] => failure

/-- At least one digit and at most as many as given. -/
def digits (most : Nat) : Reader (List Char) := do
  let found := ((← get).take most).takeWhile Char.isDigit
  if found.isEmpty then failure
  modify (·.drop found.length)
  return found

def valueOf (ds : List Char) : Nat := ds.foldl (fun n c => n * 10 + (c.toNat - 48)) 0

/-- Blanks and then a number of at most two digits. -/
def small : Reader Nat := do
  blanks
  return valueOf (← digits 2)

/-- Blanks and then a mark. -/
def mark (c : Char) : Reader Unit := do
  blanks
  discard <| char (· == c)

/-- Four digits at most, or a sign and any number of digits. -/
def year : Reader Int := do
  blanks
  match ← get with
  | '-' :: rest => set rest; return -(valueOf (← digits rest.length) : Int)
  | '+' :: rest => set rest; return valueOf (← digits rest.length)
  | _ => return valueOf (← digits 4)

/-- Digits after a point, as nanoseconds. Those beyond the ninth are dropped. -/
def nanoseconds : Reader Nat := do
  match ← get with
  | '.' :: rest =>
    set rest
    let found ← digits rest.length
    return valueOf ((found ++ List.replicate 9 '0').take 9)
  | _ => return 0

/-- Seconds that local time is ahead of universal time: a letter for none, or hours and minutes of
two digits each with a sign before them. The sign may be a hyphen or a minus. -/
def offset : Reader Int := do
  match ← get with
  | 'Z' :: rest | 'z' :: rest => set rest; return 0
  | u :: t :: c :: rest =>
    if u.toLower = 'u' && t.toLower = 't' && c.toLower = 'c' then set rest; return 0
    let sign : Int ← if u = '+' then pure 1 else if u = '-' || u = '−' then pure (-1) else failure
    set (t :: c :: rest)
    let hours := [← char Char.isDigit, ← char Char.isDigit]
    modify (·.dropWhile fun c => c == ':' || Text.isBlank c)
    let minutes := [← char fun c => '0' ≤ c && c ≤ '5', ← char Char.isDigit]
    return sign * (valueOf hours * 3600 + valueOf minutes * 60 : Nat)
  | _ => failure

end Reader

/-- Seconds of a day. -/
def dayLength : Int := 86400

/-- The moment at which local time is ahead by the offset and shows the given date and time. -/
def ofLocal? (date : Date) (hour minute second nanosecond : Nat) (offset : Int) :
    Option Timestamp :=
  if date.isValid && hour < 24 && minute < 60 && second ≤ 60
      && -dayLength < offset && offset < dayLength then
    let leap := second = 60
    let total : Int := hour * 3600 + minute * 60 + (min second 59 : Nat) - offset
    let (date, total) :=
      if total < 0 then (date.previous, total + dayLength)
      else if dayLength ≤ total then (date.next, total - dayLength)
      else (date, total)
    if date.isValid then some ⟨date, total.toNat, leap, nanosecond⟩ else none
  else none

/-- A date and a time of day with an offset. Blanks may stand between the parts, and numbers need
no leading zeros. -/
def reader : Reader Timestamp := do
  let year ← Reader.year
  Reader.mark '-'
  let month ← Reader.small
  Reader.mark '-'
  let day ← Reader.small
  discard <| Reader.char fun c => c == 'T' || c == 't' || c == ' '
  let hour ← Reader.small
  Reader.mark ':'
  let minute ← Reader.small
  Reader.mark ':'
  let second ← Reader.small
  let nanosecond ← Reader.nanoseconds
  Reader.blanks
  let offset ← Reader.offset
  Reader.blanks
  unless (← get).isEmpty do failure
  StateT.lift (ofLocal? ⟨year, month, day⟩ hour minute second nanosecond offset)

def parse? (s : String) : Option Timestamp := (reader.run s.toList).map (·.1)

/-- Decimal digits with leading zeros up to a width. -/
def padded (width n : Nat) : String :=
  let digits := toString n
  "".pushn '0' (width - digits.length) ++ digits

/-- Four digits, and a sign where those do not suffice. -/
def yearText (year : Int) : String :=
  if 0 ≤ year && year ≤ 9999 then padded 4 year.toNat
  else (if year < 0 then "-" else "+") ++ padded 4 year.natAbs

/-- No digits, three, six or nine: as few as tell the fraction. -/
def fractionText (nanosecond : Nat) : String :=
  if nanosecond = 0 then ""
  else if nanosecond % 1000000 = 0 then "." ++ padded 3 (nanosecond / 1000000)
  else if nanosecond % 1000 = 0 then "." ++ padded 6 (nanosecond / 1000)
  else "." ++ padded 9 nanosecond

def text (t : Timestamp) : String :=
  yearText t.date.year ++ "-" ++ padded 2 t.date.month ++ "-" ++ padded 2 t.date.day
    ++ "T" ++ padded 2 (t.second / 3600) ++ ":" ++ padded 2 (t.second / 60 % 60)
    ++ ":" ++ padded 2 (t.second % 60 + if t.leap then 1 else 0)
    ++ fractionText t.nanosecond ++ "Z"

end Timestamp
end StateMachine

import StateMachine.Json.Parser
import StateMachine.Number

namespace StateMachine

/-- The value of a literal that consists of digits only. -/
def Json.natural? : Json → Option Nat
  | .number literal =>
    if literal.toList.all Char.isDigit then
      some (literal.toList.foldl (fun n c => n * 10 + (c.toNat - 48)) 0)
    else none
  | _ => none

namespace Number
variable {space : Space}

/-- A number is written plainly: signs, fractions and exponents are refused, even where the value
would fit. -/
def ofJson? (j : Json) : Option (Number space) :=
  j.natural?.bind fun n => if n < 65536 then some (ofNat n) else none

def parse? (s : String) : Option (Number space) := (Json.parse? s).bind ofJson?

def toJson (n : Number space) : Json := .ofNat n.index

end Number
end StateMachine

import StateMachine.Extent

namespace StateMachine

/-- What a table tells an observer of the whole program, apart from its logger. Each notice names
the table it comes from. -/
inductive Notice where
  | built (table : String) (extent : Extent)
  | rejected (table : String) (problems : Nat)
  /-- An event for which no transition is declared. -/
  | ignored (table state event : String)
  /-- A forced transition, told before the state changes. -/
  | entered (table event source target : String)
  | destroyed (table : String)
deriving DecidableEq

namespace Notice

inductive Level where
  | warn
  | debug
  | trace

def Level.name : Level → String
  | warn => "warn"
  | debug => "debug"
  | trace => "trace"

inductive Value where
  | text (s : String)
  | size (n : Nat)

def level : Notice → Level
  | rejected .. => .warn
  | built .. => .debug
  | ignored .. | entered .. | destroyed .. => .trace

def headline : Notice → String
  | built .. => "built transition table"
  | rejected .. => "rejected transition description"
  | ignored .. => "no transition"
  | entered .. => "enter"
  | destroyed .. => "destroying transition table"

/-- Everything else the notice says, in the order in which it is shown. -/
def fields : Notice → List (String × Value)
  | built table x => [("table", .text table), ("states", .size x.states.toNat),
      ("events", .size x.events.toNat), ("descriptors", .size x.lines)]
  | rejected table n => [("table", .text table), ("errors", .size n)]
  | ignored table s e => [("table", .text table), ("state", .text s), ("event", .text e)]
  | entered table e source target => [("table", .text table), ("event", .text e),
      ("from", .text source), ("to", .text target)]
  | destroyed table => [("table", .text table)]

end Notice
end StateMachine

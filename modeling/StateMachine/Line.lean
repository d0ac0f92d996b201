import StateMachine.Number
import StateMachine.Text.Outline
import StateMachine.Text.Quoted

namespace StateMachine

/-- One line of a description. A state label, an entry handler and a source line all select the
state that the transitions after them leave from. -/
inductive Line (η : Type) where
  | stop
  | state (state : StateId) (name : String)
  | event (event : EventId) (name : String)
  | onEntry (state : StateId) (handler : η)
  | source (state : StateId)
  | next (event : EventId) (target : StateId) (handler : Option η)

namespace Line
variable {η : Type}

def isStop : Line η → Bool
  | stop => true
  | _ => false

/-- Tag of the line in messages. -/
def kind : Line η → String
  | stop => "end"
  | state .. => "state"
  | event .. => "event"
  | onEntry .. => "handler"
  | source .. => "from"
  | next .. => "next"

/-- The label of a number, in either space. -/
def label : {space : Space} → Number space → String → Line η
  | .state, s, name => state s name
  | .event, e, name => event e name

def map {θ : Type} (f : η → θ) : Line η → Line θ
  | stop => stop
  | state s name => state s name
  | event e name => event e name
  | onEntry s h => onEntry s (f h)
  | source s => source s
  | next e target h => next e target (h.map f)

/-- What the line itself runs when it is called: its entry handler or its override. -/
def handler? : Line η → Option η
  | onEntry _ h => some h
  | next _ _ h => h
  | _ => none

/-- Handlers have no text of their own. -/
def debugText : Line η → String
  | stop => "End"
  | state s name => Text.record "StateLabel" [("state", s.debugText), ("name", Text.quoted name)]
  | event e name => Text.record "EventLabel" [("event", e.debugText), ("name", Text.quoted name)]
  | onEntry s _ => Text.record "Handler" [("state", s.debugText), ("handler", "Handler(..)")]
  | source s => Text.record "From" [("state", s.debugText)]
  | next e target h => Text.record "Next" [("event", e.debugText), ("next", target.debugText),
      ("handler", Text.option (h.map fun _ => "Handler(..)"))]

end Line

end StateMachine

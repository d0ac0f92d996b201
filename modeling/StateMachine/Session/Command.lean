import StateMachine.Log
import StateMachine.Script
import StateMachine.Table.Build
import StateMachine.Table.Summary

namespace StateMachine

/-- A table whose handlers and logger are data. -/
abbrev ScriptTable := Table (List Action) Recorder

/-- A question about a table that changes nothing. -/
inductive Query where
  | lookup (s : StateId) (e : EventId)
  | transitions
  | summary
  | summaryJson
  | summaryDebug
  | stateName (s : StateId)
  | stateName? (s : StateId)
  | eventName (e : EventId)
  | eventName? (e : EventId)
  | names
  | hasEntryHandler (s : StateId)
  | info
  | hasLogger
  | debug

/-- Where a script that is called directly comes from. -/
inductive ScriptSource where
  | ownLine (position : Nat)
  | line (description position : Nat)
  | given (script : List Action)

/-- One thing to do in a session. Tables, machines and descriptions go by their place. -/
inductive Command where
  | build (blueprint : Blueprint Recorder) (description : Nat)
  | ask (table : Nat) (query : Query)
  | step (table machine : Nat) (event : EventId)
  | enter (table machine : Nat) (target : StateId) (event : EventId)
  | call (table machine : Nat) (source : ScriptSource) (event : EventId)
  | setLogger (table : Nat) (logger : Recorder)
  | clearLogger (table : Nat)
  | destroy (table : Nat)
  | put (machine : Nat) (s : StateId)
  | setRegisters (values : Vector Int64 4)
  | log (handle : Nat) (call : LogCall)

/-- The answer to a command. A build answers with the table itself. -/
inductive Reply where
  | done
  | noTable
  | noHandler
  | destroyed
  | built (table : ScriptTable)
  | notBuilt (error : BuildError)
  | outcome (outcome : Outcome)
  | transition (transition : Option Transition)
  | transitions (transitions : List Transition)
  | summary (summary : Summary)
  | text (text : String)
  | texts (texts : List String)
  | name (name : Option String)
  | names (states events : List String)
  | flag (b : Bool)
  | info (name : String) (extent : Extent) (width : CellWidth) (lines : Nat)
  | log (reply : LogReply)
  | failed (fault : Fault)

/-- All that one command shows, apart from the state it leaves. -/
structure Report where
  reply : Reply
  notes : List Note := []
  notices : List Notice := []

namespace Reply

def ofExcept {α : Type} (f : α → Reply) : Except Fault α → Reply
  | .ok a => f a
  | .error fault => failed fault

end Reply

def Table.answer {η κ : Type} (t : Table η κ) : Query → Reply
  | .lookup s e => .ofExcept .transition (t.lookup s e)
  | .transitions => .ofExcept .transitions t.transitions
  | .summary => .ofExcept .summary t.summary
  | .summaryJson => .ofExcept (fun s => .text s.toJson.render) t.summary
  | .summaryDebug => .ofExcept (fun s => .text s.debugText) t.summary
  | .stateName s => .ofExcept .text (t.stateName s)
  | .stateName? s => .name (t.stateName? s)
  | .eventName e => .ofExcept .text (t.eventName e)
  | .eventName? e => .name (t.eventName? e)
  | .names => .names t.stateNames t.eventNames
  | .hasEntryHandler s => .ofExcept .flag (t.hasEntryHandler s)
  | .info => .info t.name t.extent t.width t.lines.size
  | .hasLogger => .flag t.hasLogger
  | .debug => .texts [t.debugText, t.debugLines]

end StateMachine

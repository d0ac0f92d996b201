import StateMachine.Json.Parser
import StateMachine.Timestamp

namespace StateMachine

/-- One logged transition: the message of the table and when it was logged. -/
structure LogRecord where
  message : String
  timestamp : Timestamp
deriving DecidableEq

namespace LogRecord

def ofParts? (message timestamp : Json) : Option LogRecord :=
  match message, timestamp with
  | .string (some message), .string (some timestamp) => do
    return { message, timestamp := ← Timestamp.parse? timestamp }
  | _, _ => none

/-- An object with both parts, each once, or an array of the two. -/
def ofJson? : Json → Option LogRecord
  | .object members =>
    if Json.keysDenote members then
      match Json.values members "message", Json.values members "timestamp" with
      | [message], [timestamp] => ofParts? message timestamp
      | _, _ => none
    else none
  | .array [message, timestamp] => ofParts? message timestamp
  | _ => none

def parse? (s : String) : Option LogRecord := (Json.parse? s).bind ofJson?

def toJson (r : LogRecord) : Json :=
  .ofFields [("message", .ofString r.message), ("timestamp", .ofString r.timestamp.text)]

end LogRecord
end StateMachine

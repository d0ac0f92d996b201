namespace StateMachine

/-- Logs of messages and the handles to them. A cloned handle leads to the same log. -/
structure Shelf where
  logs : Array (Array String) := #[]
  handles : Array Nat := #[]

namespace Shelf

/-- A shelf with fresh logs, a handle to each. -/
def fresh (count : Nat) : Shelf where
  logs := Array.replicate count #[]
  handles := Array.range count

def add (shelf : Shelf) : Shelf where
  logs := shelf.logs.push #[]
  handles := shelf.handles.push shelf.logs.size

def clone (shelf : Shelf) (handle : Nat) : Shelf :=
  match shelf.handles[handle]? with
  | some log => { shelf with handles := shelf.handles.push log }
  | none => shelf

/-- The log behind a handle, oldest message first. -/
def log (shelf : Shelf) (handle : Nat) : Array String :=
  (shelf.handles[handle]?.bind (shelf.logs[·]?)).getD #[]

def messages (shelf : Shelf) (handle : Nat) : List String := (shelf.log handle).toList

def size (shelf : Shelf) (handle : Nat) : Nat := (shelf.log handle).size

def change (shelf : Shelf) (handle : Nat) (f : Array String → Array String) : Shelf :=
  match shelf.handles[handle]? with
  | some log => { shelf with logs := shelf.logs.modify log f }
  | none => shelf

def record (shelf : Shelf) (handle : Nat) (message : String) : Shelf :=
  shelf.change handle (·.push message)

def clear (shelf : Shelf) (handle : Nat) : Shelf := shelf.change handle fun _ => #[]

def sizes (shelf : Shelf) : List Nat :=
  (List.range shelf.handles.size).map shelf.size

end Shelf

inductive LogCall where
  | open
  | clone
  | record (message : String)
  /-- The message takes the way through a logger that writes to the log. -/
  | recordViaLogger (message : String)
  | messages
  | size
  | isEmpty
  | clear
  /-- Whether a time passed between the first record and the last: so it is once there is one. -/
  | hasDuration

inductive LogReply where
  | done
  | logger (text : String)
  | messages (messages : List String)
  | size (n : Nat)
  | flag (b : Bool)

def Shelf.perform (shelf : Shelf) (handle : Nat) : LogCall → LogReply × Shelf
  | .open => (.done, shelf.add)
  | .clone => (.done, shelf.clone handle)
  | .record message => (.done, shelf.record handle message)
  | .recordViaLogger message => (.logger "Logger(..)", shelf.record handle message)
  | .messages => (.messages (shelf.messages handle), shelf)
  | .size => (.size (shelf.size handle), shelf)
  | .isEmpty => (.flag (shelf.size handle == 0), shelf)
  | .clear => (.done, shelf.clear handle)
  | .hasDuration => (.flag (shelf.size handle != 0), shelf)

end StateMachine

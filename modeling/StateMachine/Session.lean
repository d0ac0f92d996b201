import StateMachine.Session.Command
import StateMachine.Table.Step

namespace StateMachine

/-- The table at work: scripts as handlers, the recorder as logger. -/
def Table.live (t : ScriptTable) : Table (Handler Registers Note) (Logger Registers Note) :=
  t.map Action.handler Recorder.logger

/-- Several tables, the machines they drive, and what handlers and loggers share. A slot for a table
is empty when its build failed and after the table was destroyed. -/
structure Session where
  descriptions : Array (Description (List Action))
  tables : Array (Option ScriptTable) := #[]
  machines : Array StateId
  registers : Registers := {}
  shelf : Shelf := .fresh 2
  /-- Scripts that may run in one command. -/
  fuel : Nat := 16

namespace Session

def table? (session : Session) (slot : Nat) : Option ScriptTable := session.tables[slot]?.join

def setTable (session : Session) (slot : Nat) (table : Option ScriptTable) : Session :=
  { session with tables := session.tables.setIfInBounds slot table }

def script? (session : Session) (table : ScriptTable) : ScriptSource → Option (List Action)
  | .ownLine position => table.lines[position]?.bind (·.handler?)
  | .line description position =>
    (session.descriptions[description]?.bind (·[position]?)).bind (·.handler?)
  | .given script => some script

/-- Messages meant for a log go there in the order in which they were noted. -/
def file (shelf : Shelf) (notes : List Note) : Shelf :=
  notes.foldl (fun shelf note => match note with
    | .recorded handle message => shelf.record handle message
    | _ => shelf) shelf

/-- Runs a call on a machine and keeps what it left behind, also when it failed. -/
def drive {α : Type} (session : Session) (machine : Nat) (reply : α → Reply)
    (call : Exec Registers Note α) : Report × Session :=
  match session.machines[machine]? with
  | none => (⟨.failed (.defect (.bounds machine session.machines.size)), [], []⟩, session)
  | some s =>
    let run := call s session.registers
    (⟨.ofExcept reply run.result, run.notes, run.notices⟩,
      { session with
        machines := session.machines.setIfInBounds machine run.state
        registers := run.context
        shelf := file session.shelf run.notes })

/-- Runs a command on a table, if the slot holds one. -/
def onTable (session : Session) (slot : Nat) (f : ScriptTable → Report × Session) :
    Report × Session :=
  match session.table? slot with
  | none => ({ reply := .noTable }, session)
  | some table => f table

def build (session : Session) (blueprint : Blueprint Recorder) (description : Nat) :
    Report × Session :=
  let (result, notices) := blueprint.build (session.descriptions[description]?.getD [])
  match result with
  | .ok table => (⟨.built table, [], notices⟩,
      { session with tables := session.tables.push (some table) })
  | .error error => (⟨.notBuilt error, [], notices⟩,
      { session with tables := session.tables.push none })

/-- One more than the fuel is deep enough: the innermost script of a chain finds no fuel. -/
def depth (session : Session) : Nat := session.fuel + 1

def perform (session : Session) : Command → Report × Session
  | .build blueprint description => session.build blueprint description
  | .ask slot query => session.onTable slot fun t => ({ reply := t.answer query }, session)
  | .step slot machine event => session.onTable slot fun t =>
    session.drive machine .outcome (t.live.step session.depth event)
  | .enter slot machine target event => session.onTable slot fun t =>
    session.drive machine (fun _ => .done) (t.live.enter session.depth target event)
  | .call slot machine source event => session.onTable slot fun t =>
    match session.script? t source with
    | none => ({ reply := .noHandler }, session)
    | some script =>
      session.drive machine (fun _ => .done)
        (t.live.run session.depth (Action.handler script) event)
  | .setLogger slot logger => session.onTable slot fun t =>
    ({ reply := .done }, session.setTable slot (some (t.setLogger logger)))
  | .clearLogger slot => session.onTable slot fun t =>
    ({ reply := .done }, session.setTable slot (some t.clearLogger))
  | .destroy slot => session.onTable slot fun t =>
    (⟨.destroyed, [], [.destroyed t.name]⟩, session.setTable slot none)
  | .put machine s =>
    ({ reply := .done }, { session with machines := session.machines.setIfInBounds machine s })
  | .setRegisters values =>
    ({ reply := .done }, { session with registers := { session.registers with values } })
  | .log handle call =>
    let (reply, shelf) := session.shelf.perform handle call
    ({ reply := .log reply }, { session with shelf })

def refuel (session : Session) : Session :=
  { session with registers := { session.registers with fuel := session.fuel } }

/-- Every command starts with full fuel. The sessions are those after each command. -/
def transcript (session : Session) : List Command → List (Report × Session)
  | [] => []
  | command :: rest =>
    let (report, next) := session.refuel.perform command
    (report, next) :: next.transcript rest

end Session
end StateMachine

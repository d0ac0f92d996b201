import StateMachine.Routine

namespace StateMachine

/-- Four counters that scripts share, and the number of scripts that may still run. -/
structure Registers where
  values : Vector Int64 4 := Vector.replicate 4 0
  fuel : Nat := 0

inductive Comparison where
  | lt
  | le
  | gt
  | ge
  | eq

def Comparison.holds : Comparison → Int64 → Int64 → Bool
  | lt, a, b => a < b
  | le, a, b => a ≤ b
  | gt, a, b => b < a
  | ge, a, b => b ≤ a
  | eq, a, b => a == b

/-- What scripts and their loggers leave behind. -/
inductive Note where
  | mark (label table : String) (state : StateId) (event : EventId)
      (stateName eventName : Option String)
  | stepped (outcome : Outcome)
  | noFuel
  | noTransition
  | traced (tag message : String) (first : Int64)
  /-- A message for the log of a handle. -/
  | recorded (handle : Nat) (message : String)

/-- A handler as data. Without an event of its own an action uses the one that came in. -/
inductive Action where
  | mark (label : String)
  | add (register : Fin 4) (amount : Int64)
  | set (state : StateId)
  | enter (state : StateId) (event : Option EventId)
  | step (event : Option EventId)
  /-- Enters the declared target of the present state, also of an overridden transition. -/
  | follow
  | fail (message : String)
  | ifRegister (register : Fin 4) (comparison : Comparison) (value : Int64)
      (yes no : List Action)
  | ifState (state : StateId) (yes no : List Action)

mutual

def Action.routine (view : View) (event : EventId) : Action → Routine Registers Note Unit
  | .mark label =>
    .getState fun s =>
      .note (.mark label view.name s event (view.stateName? s) (view.eventName? event)) (.done ())
  | .add r amount =>
    .getContext fun c => .setContext { c with values := c.values.set r (c.values[r] + amount) }
      (.done ())
  | .set s => .setState s (.done ())
  | .enter s e => .enter s (e.getD event) (.done ())
  | .step e => .step (e.getD event) fun d => .note (.stepped d) (.done ())
  | .follow =>
    .getState fun s => (Routine.lift (view.lookup s event)).bind fun
      | some t => .enter t.target event (.done ())
      | none => .note .noTransition (.done ())
  | .fail message => .fail (.raised message)
  | .ifRegister r comparison value yes no =>
    .getContext fun c =>
      if comparison.holds c.values[r] value then Action.routines view event yes
      else Action.routines view event no
  | .ifState state yes no =>
    .getState fun s =>
      if s = state then Action.routines view event yes else Action.routines view event no

def Action.routines (view : View) (event : EventId) : List Action → Routine Registers Note Unit
  | [] => .done ()
  | action :: rest => (action.routine view event).bind fun _ => Action.routines view event rest

end

/-- A script takes one unit of fuel, or only says that there is none. So scripts that call each
other come to an end. -/
def Action.handler (script : List Action) : Handler Registers Note := fun view event =>
  .getContext fun c => match c.fuel with
    | 0 => .note .noFuel (.done ())
    | fuel + 1 => .setContext { c with fuel } (Action.routines view event script)

/-- The loggers that can be installed in a session. -/
inductive Recorder where
  | trace (tag : String)
  | log (handle : Nat)
  | failing

def Recorder.logger : Recorder → Logger Registers Note
  | trace tag => fun c message => { notes := [.traced tag message c.values[0]] }
  | log handle => fun _ message => { notes := [.recorded handle message] }
  | failing => fun _ message => { failure := some ("logger: " ++ message) }

end StateMachine

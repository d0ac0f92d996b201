import StateMachine.Proofs.Logs
import StateMachine.Session

namespace StateMachine

namespace Session
variable {session : Session} {estate : Estate (List Action) Recorder Registers} {α : Type}

def practice : Practice (List Action) Recorder Registers Note where
  handler := Action.handler
  logger := Recorder.logger
  change?
    | .recorded handle message => some (.record handle message)
    | _ => none
  handle?
    | .log handle => some handle
    | _ => none
  records := by
    intro k handle h c message
    cases k with
    | log handle' =>
      obtain rfl := Option.some.inj h
      exact ⟨_, rfl, rfl⟩
    | _ => cases h

theorem file_eq (shelf : Shelf) (notes : List Note) :
    file shelf notes = (notes.filterMap practice.change?).foldl Shelf.apply shelf := by
  unfold file
  induction notes generalizing shelf with
  | nil => rfl
  | cons note notes ih =>
    rw [List.foldl_cons, ih]
    cases note <;> rfl

/-- An estate with the same tables and logs, the same machines and the registers for a context. -/
structure Mirrors (session : Session) (estate : Estate (List Action) Recorder Registers) : Prop where
  tables : estate.tables = session.tables
  shelf : estate.shelf = session.shelf
  machines : ∀ i s, session.machines[i]? = some s → estate.holdings.machines i = s
  registers : estate.holdings.contexts 0 = session.registers

/-- A work on a machine that the session has. -/
def work? (session : Session) (slot machine : Nat) (work : Work Registers Note) :
    Option (Order (List Action) Recorder Registers Note) :=
  session.machines[machine]?.map fun _ => .perform slot machine 0 session.depth work

/-- What a command asks of an estate, if anything. -/
def order? (session : Session) :
    Command → Option (Order (List Action) Recorder Registers Note)
  | .build blueprint description =>
    some (.build blueprint (session.descriptions[description]?.getD []))
  | .ask .. => none
  | .step slot machine event => session.work? slot machine (.call (.step event))
  | .enter slot machine target event => session.work? slot machine (.call (.enter target event))
  | .call slot machine source event =>
    ((session.table? slot).bind fun t => session.script? t source).bind fun script =>
      session.work? slot machine (.handle .direct (Action.handler script) event)
  | .setLogger slot logger => some (.setLogger slot logger)
  | .clearLogger slot => some (.clearLogger slot)
  | .destroy slot => some (.destroy slot)
  | .put machine s => some (.put machine s)
  | .setRegisters values => some (.give 0 { session.registers with values })
  | .log handle call => some (.log handle call)

/-- Full fuel first, and then the command. -/
def orders (session : Session) (command : Command) :
    List (Order (List Action) Recorder Registers Note) :=
  .give 0 session.refuel.registers :: (session.refuel.order? command).toList

/-- The orders of all commands in a row. -/
def allOrders (session : Session) : List Command →
    List (Order (List Action) Recorder Registers Note)
  | [] => []
  | command :: rest =>
    session.orders command ++ (session.refuel.perform command).2.allOrders rest

theorem Mirrors.table? (k : session.Mirrors estate) (slot : Nat) :
    estate.table? slot = session.table? slot := by
  rw [Estate.table?, k.tables, Session.table?]

theorem Mirrors.setTable (k : session.Mirrors estate) (slot : Nat) (table : Option ScriptTable) :
    (session.setTable slot table).Mirrors (estate.setTable slot table) := by
  refine ⟨?_, k.shelf, k.machines, k.registers⟩
  rw [Estate.setTable, k.tables, Session.setTable]

theorem Mirrors.onTable (k : session.Mirrors estate) (slot : Nat)
    {f : ScriptTable → Report × Session} {g : ScriptTable → Estate (List Action) Recorder Registers}
    (h : ∀ t, session.table? slot = some t → (f t).2.Mirrors (g t)) :
    (session.onTable slot f).2.Mirrors (estate.onTable slot g) := by
  unfold Session.onTable Estate.onTable
  rw [k.table?]
  cases ht : session.table? slot with
  | none => exact k
  | some t => exact h t ht

theorem Mirrors.machines_put (k : session.Mirrors estate) (machine : Nat) {s s' : StateId}
    (h : s = s') (i : Nat) (current : StateId)
    (hi : (session.machines.setIfInBounds machine s')[i]? = some current) :
    (if i = machine then s else estate.holdings.machines i) = current := by
  rw [Array.getElem?_setIfInBounds] at hi
  by_cases him : i = machine
  · rw [if_pos him.symm] at hi
    split at hi
    · rw [if_pos him, h]
      exact Option.some.inj hi
    · cases hi
  · rw [if_neg fun h => him h.symm] at hi
    rw [if_neg him]
    exact k.machines i current hi

/-- A call that goes as a work on the same table does leaves the same behind. -/
theorem Mirrors.drive (k : session.Mirrors estate) {slot : Nat} (machine : Nat) {t : ScriptTable}
    (ht : session.table? slot = some t) (reply : α → Reply) {call : Exec Registers Note α}
    {work : Work Registers Note} (g : α → Option Outcome)
    (hwork : t.live.perform session.depth work = call >>= fun a => pure (g a)) :
    (session.drive machine reply call).2.Mirrors
      (estate.after practice (session.work? slot machine work).toList) := by
  unfold Session.drive work? Estate.after
  cases hs : session.machines[machine]? with
  | none => exact k
  | some s =>
    have haccount := Exec.account_answer call g s session.registers
    rw [← hwork] at haccount
    obtain ⟨-, hstate, hcontext, hrecord⟩ := Account.mk.inj haccount
    have hrun : estate.run practice t machine 0 session.depth work =
        t.live.perform session.depth work s session.registers := by
      rw [← k.machines machine s hs, ← k.registers]
      rfl
    have hnotes : (t.live.perform session.depth work s session.registers).notes =
        (call s session.registers).notes := congrArg (List.filterMap _) hrecord
    simp only [Option.map_some, Option.toList_some, List.foldl_cons, List.foldl_nil,
      Estate.perform, Estate.onTable, Estate.changes, k.table?, ht, hrun, hnotes]
    refine ⟨k.tables, ?_, ?_, hcontext⟩
    · rw [file_eq, k.shelf]
    · exact k.machines_put machine hstate

/-- The same where the slot may be empty. -/
theorem Mirrors.drive_onTable (k : session.Mirrors estate) (slot machine : Nat) (reply : α → Reply)
    {call : ScriptTable → Exec Registers Note α} {work : Work Registers Note}
    (g : α → Option Outcome)
    (hwork : ∀ t : ScriptTable,
      t.live.perform session.depth work = call t >>= fun a => pure (g a)) :
    (session.onTable slot fun t => session.drive machine reply (call t)).2.Mirrors
      (estate.after practice (session.work? slot machine work).toList) := by
  unfold Session.onTable
  cases ht : session.table? slot with
  | none =>
    unfold work?
    cases session.machines[machine]? with
    | none => exact k
    | some s =>
      have hidle : estate.perform practice (.perform slot machine 0 session.depth work) = estate := by
        simp only [Estate.perform, Estate.onTable, k.table?, ht]
      simp only [Option.map_some, Option.toList_some, Estate.after, List.foldl_cons, List.foldl_nil,
        hidle]
      exact k
  | some t => exact k.drive machine ht reply g (hwork t)

theorem Mirrors.build (k : session.Mirrors estate) (blueprint : Blueprint Recorder)
    (description : Nat) :
    (session.build blueprint description).2.Mirrors (estate.perform practice
      (.build blueprint (session.descriptions[description]?.getD []))) := by
  unfold Session.build
  simp only [Estate.perform]
  generalize blueprint.build (session.descriptions[description]?.getD []) = built
  obtain ⟨result, notices⟩ := built
  cases result with
  | ok t => exact ⟨congrArg (·.push (some t)) k.tables, k.shelf, k.machines, k.registers⟩
  | error error => exact ⟨congrArg (·.push none) k.tables, k.shelf, k.machines, k.registers⟩

/-- Each command does to the session what its order does to the estate. -/
theorem Mirrors.perform (k : session.Mirrors estate) (command : Command) :
    (session.perform command).2.Mirrors
      (estate.after practice (session.order? command).toList) := by
  cases command with
  | build blueprint description => exact k.build blueprint description
  | ask slot query =>
    change (session.onTable slot _).2.Mirrors estate
    unfold Session.onTable
    cases session.table? slot <;> exact k
  | step slot machine event =>
    exact k.drive_onTable slot machine .outcome some fun t => rfl
  | enter slot machine target event =>
    exact k.drive_onTable slot machine (fun _ => .done) (fun _ => none) fun t => rfl
  | call slot machine source event =>
    change (session.onTable slot _).2.Mirrors _
    unfold Session.onTable
    simp only [order?]
    cases ht : session.table? slot with
    | none => exact k
    | some t =>
      simp only [Option.bind_some]
      cases session.script? t source with
      | none => exact k
      | some script =>
        exact k.drive machine ht (fun _ => .done) (fun _ => none) rfl
  | setLogger slot logger =>
    exact k.onTable slot fun t _ => k.setTable slot (some (t.setLogger logger))
  | clearLogger slot => exact k.onTable slot fun t _ => k.setTable slot (some t.clearLogger)
  | destroy slot => exact k.onTable slot fun t _ => k.setTable slot none
  | put machine s => exact ⟨k.tables, k.shelf, k.machines_put machine rfl, k.registers⟩
  | setRegisters values => exact ⟨k.tables, k.shelf, k.machines, rfl⟩
  | log handle call =>
    exact ⟨k.tables, congrArg (fun shelf => (shelf.perform handle call).2) k.shelf, k.machines,
      k.registers⟩

theorem Mirrors.refuel (k : session.Mirrors estate) :
    session.refuel.Mirrors (estate.perform practice (.give 0 session.refuel.registers)) :=
  ⟨k.tables, k.shelf, k.machines, rfl⟩

/-- A whole session, command by command. -/
theorem Mirrors.transcript (k : session.Mirrors estate) (commands : List Command) {i : Nat}
    {report : Report} {later : Session}
    (h : (session.transcript commands)[i]? = some (report, later)) :
    later.Mirrors (estate.after practice (session.allOrders (commands.take (i + 1)))) := by
  induction commands generalizing session estate i with
  | nil => cases h
  | cons command rest ih =>
    have hnext : ((session.refuel.perform command).2).Mirrors
        (estate.after practice (session.orders command)) := k.refuel.perform command
    rw [List.take_succ_cons, allOrders, Estate.after, List.foldl_append, ← Estate.after,
      ← Estate.after]
    cases i with
    | zero =>
      obtain ⟨-, rfl⟩ := Prod.mk.inj (Option.some.inj h)
      exact hnext
    | succ i => exact ih hnext h

/-- The logs of a session hold what became of them by then, as what its commands ask of an estate
tells. -/
theorem messages_transcript (descriptions : Array (Description (List Action)))
    (machines : Array StateId) (registers : Registers) (fuel : Nat) (commands : List Command)
    {i : Nat} {report : Report} {later : Session}
    (h : (transcript ⟨descriptions, #[], machines, registers, .fresh 2, fuel⟩ commands)[i]? =
      some (report, later)) (handle : Nat) :
    later.shelf.messages handle =
      match later.shelf.handles[handle]? with
      | none => []
      | some log => LogEvent.messages log
          ((Estate.start ⟨fun i => machines[i]?.getD .reserved, fun _ => registers⟩ 2).chronicle
            practice (allOrders ⟨descriptions, #[], machines, registers, .fresh 2, fuel⟩
              (commands.take (i + 1)))) := by
  let session : Session := ⟨descriptions, #[], machines, registers, .fresh 2, fuel⟩
  let holdings : Holdings Registers := ⟨fun i => machines[i]?.getD .reserved, fun _ => registers⟩
  have hstart : session.Mirrors (Estate.start holdings 2) := by
    refine ⟨rfl, rfl, ?_, rfl⟩
    intro i s hs
    change machines[i]? = some s at hs
    change machines[i]?.getD .reserved = s
    rw [hs]
    rfl
  have k := (Estate.start_accounts holdings 2).after practice
    (session.allOrders (commands.take (i + 1)))
  rw [← (hstart.transcript commands h).shelf]
  exact k.messages_eq handle

end Session
end StateMachine

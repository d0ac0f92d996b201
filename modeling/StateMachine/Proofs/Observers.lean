import StateMachine.Proofs.Agreement

namespace StateMachine
variable {η κ σ ρ α β : Type}

/-- It may leave notes, and that is all it may do. -/
def Quiet (logger : Logger σ ρ) : Prop := ∀ c message, (logger c message).failure = none

def Act.Quiet : Act σ ρ → Prop
  | setLogger logger => StateMachine.Quiet logger
  | _ => True

/-- The works of a session, each with the logger that it finds. -/
def Act.works (logger : Option (Logger σ ρ)) :
    List (Act σ ρ) → List (Option (Logger σ ρ) × Nat × Nat × Work σ ρ)
  | [] => []
  | .perform machine context work :: rest => (logger, machine, context, work) :: works logger rest
  | .setLogger logger :: rest => works (some logger) rest
  | .clearLogger :: rest => works none rest

namespace Act
variable {logger : Option (Logger σ ρ)} {acts : List (Act σ ρ)}

theorem map_snd_works (logger : Option (Logger σ ρ)) (acts : List (Act σ ρ)) :
    (works logger acts).map Prod.snd = acts.filterMap work? := by
  induction acts generalizing logger with
  | nil => rfl
  | cons act rest ih =>
    cases act with
    | perform machine context work => exact congrArg (_ :: ·) (ih logger)
    | setLogger logger' => exact ih (some logger')
    | clearLogger => exact ih none

theorem quiet_works (hlogger : ∀ l ∈ logger, StateMachine.Quiet l) (h : ∀ act ∈ acts, act.Quiet) :
    ∀ x ∈ works logger acts, ∀ l ∈ x.1, StateMachine.Quiet l := by
  induction acts generalizing logger with
  | nil => nofun
  | cons act rest ih =>
    obtain ⟨hact, hrest⟩ := List.forall_mem_cons.mp h
    cases act with
    | perform machine context work => exact List.forall_mem_cons.mpr ⟨hlogger, ih hlogger hrest⟩
    | setLogger logger' =>
      refine ih (fun l hl => ?_) hrest
      obtain rfl := Option.some.inj hl
      exact hact
    | clearLogger => exact ih nofun hrest

theorem blind_works {hide : View → View} (h : ∀ act ∈ acts, act.Blind hide) :
    ∀ x ∈ works logger acts, x.2.2.2.Blind hide := by
  induction acts generalizing logger with
  | nil => nofun
  | cons act rest ih =>
    obtain ⟨hact, hrest⟩ := List.forall_mem_cons.mp h
    cases act with
    | perform machine context work => exact List.forall_mem_cons.mpr ⟨hact, ih hrest⟩
    | setLogger logger' => exact ih hrest
    | clearLogger => exact ih hrest

end Act

def Occurrence.isNote : Occurrence σ ρ → Bool
  | .noted _ => true
  | _ => false

/-- A record without the messages that loggers were handed, and without the notes that they left. The
notice of the move comes next, so none of a handler's notes are among them. -/
def unlogged : List (Occurrence σ ρ) → List (Occurrence σ ρ)
  | [] => []
  | .logged .. :: rest => (unlogged rest).dropWhile Occurrence.isNote
  | o :: rest => o :: unlogged rest

def Response.unlogged (response : Response σ ρ) : Response σ ρ :=
  { response with record := StateMachine.unlogged response.record }

theorem notices_dropWhile (record : List (Occurrence σ ρ)) :
    notices (record.dropWhile Occurrence.isNote) = notices record := by
  induction record with
  | nil => rfl
  | cons o rest ih =>
    cases o with
    | noted note => exact ih
    | _ => rfl

/-- Loggers have no part in what an observer of the whole program is told. -/
theorem notices_unlogged (record : List (Occurrence σ ρ)) :
    notices (unlogged record) = notices record := by
  induction record with
  | nil => rfl
  | cons o rest ih =>
    cases o with
    | logged s message => exact (notices_dropWhile _).trans ih
    | reported notice => exact congrArg (notice :: ·) ih
    | _ => exact ih

theorem unlogged_noted (notes : List ρ) (rest : List (Occurrence σ ρ)) :
    unlogged (notes.map .noted ++ rest) = notes.map .noted ++ unlogged rest := by
  induction notes with
  | nil => rfl
  | cons note notes ih => exact congrArg (.noted note :: ·) ih

theorem unlogged_logged (s : StateId) (message : String) (notes : List ρ) (notice : Notice)
    (rest : List (Occurrence σ ρ)) :
    unlogged (.logged s message :: (notes.map .noted ++ .reported notice :: rest)) =
      .reported notice :: unlogged rest := by
  have hnotes : ∀ o ∈ (notes.map .noted : List (Occurrence σ ρ)), o.isNote = true := by
    intro o ho
    obtain ⟨note, -, rfl⟩ := List.mem_map.mp ho
    rfl
  rw [unlogged, unlogged_noted, List.dropWhile_append_of_pos hnotes]
  rfl

/-- Without the part of the loggers, all that a record shows is another one, whatever comes after. -/
def Shows (record shown : List (Occurrence σ ρ)) : Prop :=
  ∀ rest, unlogged (record ++ rest) = shown ++ unlogged rest

theorem shows_nil : Shows ([] : List (Occurrence σ ρ)) [] := fun _ => rfl

theorem shows_singleton {o : Occurrence σ ρ} (h : ∀ s message, o ≠ .logged s message) :
    Shows [o] [o] := by
  intro rest
  cases o with
  | logged s message => exact absurd rfl (h s message)
  | _ => rfl

theorem Shows.append {record record' shown shown' : List (Occurrence σ ρ)} (h : Shows record shown)
    (h' : Shows record' shown') : Shows (record ++ record') (shown ++ shown') := by
  intro rest
  rw [List.append_assoc, h, h', List.append_assoc]

/-- The same but for the part of the loggers. -/
structure Account.Unlogs (a b : Account σ ρ α) : Prop where
  result : a.result = b.result
  state : a.state = b.state
  context : a.context = b.context
  record : ∃ shown, Shows a.record shown ∧ Shows b.record shown

namespace Account.Unlogs
variable {a b : Account σ ρ α}

theorem after {earlier earlier' shown : List (Occurrence σ ρ)} (hearlier : Shows earlier shown)
    (hearlier' : Shows earlier' shown) (h : a.Unlogs b) :
    (a.after earlier).Unlogs (b.after earlier') := by
  obtain ⟨hresult, hstate, hcontext, later, hlater, hlater'⟩ := h
  exact ⟨hresult, hstate, hcontext, shown ++ later, hearlier.append hlater, hearlier'.append hlater'⟩

theorem andThen {f g : α → StateId → σ → Account σ ρ β} (h : a.Unlogs b)
    (hf : ∀ v s c, (f v s c).Unlogs (g v s c)) : (a.andThen f).Unlogs (b.andThen g) := by
  obtain ⟨result, s, c, record⟩ := a
  obtain ⟨result', s', c', record'⟩ := b
  obtain ⟨rfl, rfl, rfl, hrecord⟩ := h
  cases result with
  | error fault => exact ⟨rfl, rfl, rfl, hrecord⟩
  | ok v =>
    obtain ⟨shown, hshown, hshown'⟩ := hrecord
    exact (hf v s c).after hshown hshown'

end Account.Unlogs

/-- Wherever it starts, a call goes the same way as another but for the part of the loggers. -/
def Exec.Unlogs (x y : Exec σ ρ α) : Prop := ∀ s c, (x s c).account.Unlogs (y s c).account

theorem Exec.Unlogs.bind {x y : Exec σ ρ α} {f g : α → Exec σ ρ β} (h : x.Unlogs y)
    (hf : ∀ v, (f v).Unlogs (g v)) : (x >>= f).Unlogs (y >>= g) := by
  intro s c
  rw [account_bind, account_bind]
  exact (h s c).andThen fun v => hf v

theorem Exec.Unlogs.lift (r : Except Fault α) : (Exec.lift r : Exec σ ρ α).Unlogs (.lift r) :=
  fun _ _ => ⟨rfl, rfl, rfl, [], shows_nil, shows_nil⟩

theorem Exec.Unlogs.assign (target : StateId) :
    (Exec.assign target : Exec σ ρ Unit).Unlogs (.assign target) := by
  intro s c
  have hshown : Shows ([.assigned target] : List (Occurrence σ ρ)) [.assigned target] :=
    shows_singleton nofun
  exact ⟨rfl, rfl, rfl, _, hshown, hshown⟩

namespace Table
variable {t : Table (Handler σ ρ) (Logger σ ρ)} {logger : Option (Logger σ ρ)}

/-- A table without a logger, or with one that does not fail. -/
def IsQuiet (t : Table (Handler σ ρ) (Logger σ ρ)) : Prop := ∀ logger ∈ t.logger, Quiet logger

/-- The notice of a move follows right after what the logger leaves, and is all that shows. -/
theorem IsQuiet.announce (hquiet : t.IsQuiet) (message : String) (notice : Notice) (s : StateId)
    (c : σ) : ∃ record, Shows record [.reported notice] ∧ ∀ x : Exec σ ρ Unit,
      ((do t.notify message; .tell (.reported notice); x : Exec σ ρ Unit) s c).account =
        (x s c).account.after record := by
  cases hlogger : t.logger with
  | none =>
    refine ⟨[.reported notice], shows_singleton nofun, fun x => ?_⟩
    simp [notify_account, hlogger]
  | some logger =>
    refine ⟨.logged s message :: ((logger c message).notes.map .noted ++ [.reported notice]),
      fun rest => ?_, fun x => ?_⟩
    · rw [List.cons_append, List.append_assoc]
      exact unlogged_logged s message _ notice rest
    · simp [notify_account, hlogger, hquiet logger hlogger c message]

theorem IsQuiet.unlogs_congruence (hquiet : t.IsQuiet) (hquiet' : { t with logger }.IsQuiet)
    (hunasked : ∀ handler, t.Carries handler → handler t.view = handler { t with logger }.view) :
    t.Congruence (fun _ => Exec.Unlogs) logger where
  bind h hf := h.bind hf
  lift r := .lift r
  state s c := Exec.Unlogs.lift (.ok s) s c
  context s c := Exec.Unlogs.lift (.ok c) s c
  setContext c _ _ := ⟨rfl, rfl, rfl, [], shows_nil, shows_nil⟩
  tell {o} h s c := by
    have hshown : Shows [o] [o] := shows_singleton fun s message hlogged => by
      rw [hlogged] at h
      cases h
    exact ⟨rfl, rfl, rfl, _, hshown, hshown⟩
  moveThen target e x y h := by
    refine .bind (fun s c => Exec.Unlogs.lift (.ok s) s c) fun current => ?_
    refine .bind (.lift _) fun _ => .bind (.lift _) fun _ => .bind (.lift _) fun _ => ?_
    refine .bind (.lift _) fun eventName => .bind (.lift _) fun sourceName => ?_
    refine .bind (.lift _) fun targetName => ?_
    intro s c
    obtain ⟨record, hshown, haccount⟩ := hquiet.announce
      s!"event {eventName} state {sourceName} -> {targetName}"
      (.entered t.name eventName sourceName targetName) s c
    obtain ⟨record', hshown', haccount'⟩ := hquiet'.announce
      s!"event {eventName} state {sourceName} -> {targetName}"
      (.entered t.name eventName sourceName targetName) s c
    rw [haccount, haccount']
    exact (Exec.Unlogs.bind (.assign target) (fun _ => h) s c).after hshown hshown'
  assign _ _ _ _ := .assign _
  unasked h := hunasked _ h

/-- Whatever is done with a machine, only the record tells which logger was there. -/
theorem IsQuiet.perform_unlogs (hquiet : t.IsQuiet) (hquiet' : { t with logger }.IsQuiet)
    (depth : Nat) {work : Work σ ρ}
    (hunasked : ∀ handler, t.Carries handler ∨ work.handler? = some handler →
      handler t.view = handler { t with logger }.view) :
    (t.perform depth work).Unlogs ({ t with logger }.perform depth work) := by
  have k := hquiet.unlogs_congruence hquiet' fun handler h => hunasked handler (.inl h)
  cases work with
  | call request =>
    cases request with
    | step e => exact .bind ((k.nested (depth + 1)).step e) fun _ => .lift (.ok _)
    | enter target e => exact .bind ((k.nested (depth + 1)).enter target e) fun _ => .lift (.ok _)
  | handle role handler e =>
    have hinvoke : (t.invoke (t.calls depth) role handler e).Unlogs
        ({ t with logger }.invoke ({ t with logger }.calls depth) role handler e) := by
      rw [Table.invoke, Table.invoke, ← Exec.invoke_congr (hunasked handler (.inr rfl))]
      exact k.toCongruence.invoke (k.nested depth) fun s _ => .assign s
    exact .bind hinvoke fun _ => .lift (.ok _)

theorem IsQuiet.respond_unlogged (hquiet : t.IsQuiet) (hquiet' : { t with logger }.IsQuiet)
    (depth : Nat) (holdings : Holdings σ) (machine context : Nat) {work : Work σ ρ}
    (hunasked : ∀ handler, t.Carries handler ∨ work.handler? = some handler →
      handler t.view = handler { t with logger }.view) :
    (t.respond depth holdings machine context work).unlogged =
      ({ t with logger }.respond depth holdings machine context work).unlogged := by
  obtain ⟨hresult, hstate, hcontext, shown, hshown, hshown'⟩ :=
    hquiet.perform_unlogs hquiet' depth hunasked (holdings.machines machine)
      (holdings.contexts context)
  have hrecord := (hshown []).trans (hshown' []).symm
  rw [List.append_nil, List.append_nil] at hrecord
  simp only [respond, Response.unlogged, Response.mk.injEq]
  exact ⟨hresult, hrecord, congrArg₂ (holdings.put machine context) hstate hcontext⟩

/-- The responses to works, each with its own logger. -/
def respondAll (t : Table (Handler σ ρ) (Logger σ ρ)) (depth : Nat) (holdings : Holdings σ) :
    List (Option (Logger σ ρ) × Nat × Nat × Work σ ρ) → List (Response σ ρ)
  | [] => []
  | (logger, machine, context, work) :: rest =>
    let response := { t with logger }.respond depth holdings machine context work
    response :: t.respondAll depth response.holdings rest

theorem responses_eq (t : Table (Handler σ ρ) (Logger σ ρ)) (logger : Option (Logger σ ρ))
    (depth : Nat) (holdings : Holdings σ) (acts : List (Act σ ρ)) :
    { t with logger }.responses depth holdings acts =
      t.respondAll depth holdings (Act.works logger acts) := by
  induction acts generalizing logger holdings with
  | nil => rfl
  | cons act rest ih =>
    cases act with
    | perform machine context work => rw [responses, Act.works, respondAll, ih]
    | setLogger logger' => exact ih (some logger') holdings
    | clearLogger => exact ih none holdings

theorem carries_logger {handler : Handler σ ρ} (h : { t with logger }.Carries handler) :
    t.Carries handler := by
  cases h with
  | entry h => exact .entry h
  | override hcell h => exact .override hcell h

/-- A view does not show the logger itself. -/
theorem view_logger {logger' : Option (Logger σ ρ)} (h : logger.isSome = logger'.isSome) :
    { t with logger }.view = { t with logger := logger' }.view :=
  congrArg (fun hasLogger => { t.view with hasLogger }) h

theorem view_unlogged (logger logger' : Option (Logger σ ρ)) :
    { t with logger }.view.unlogged = { t with logger := logger' }.view.unlogged := rfl

/-- The same works with other loggers get the same responses. Handlers that ask for a logger must find
one in the same places. -/
theorem respondAll_unlogged {works works' : List (Option (Logger σ ρ) × Nat × Nat × Work σ ρ)}
    (hwork : works.map Prod.snd = works'.map Prod.snd)
    (hquiet : ∀ x ∈ works, ∀ l ∈ x.1, Quiet l) (hquiet' : ∀ x ∈ works', ∀ l ∈ x.1, Quiet l)
    (hunasked : (∀ handler, t.Carries handler → Handler.Blind View.unlogged handler) ∧
        (∀ x ∈ works, x.2.2.2.Blind View.unlogged) ∨
      works.map (·.1.isSome) = works'.map (·.1.isSome)) (depth : Nat) (holdings : Holdings σ) :
    (t.respondAll depth holdings works).map Response.unlogged =
      (t.respondAll depth holdings works').map Response.unlogged := by
  induction works generalizing works' holdings with
  | nil =>
    obtain rfl := List.map_eq_nil_iff.mp hwork.symm
    rfl
  | cons x rest ih =>
    obtain ⟨x', rest', rfl, hx, hrest⟩ := List.map_eq_cons_iff.mp hwork.symm
    obtain ⟨logger, machine, context, work⟩ := x
    obtain ⟨logger', machine', context', work'⟩ := x'
    cases hx
    obtain ⟨hlogger, hquiet⟩ := List.forall_mem_cons.mp hquiet
    obtain ⟨hlogger', hquiet'⟩ := List.forall_mem_cons.mp hquiet'
    have hsame : ∀ handler, { t with logger }.Carries handler ∨ work.handler? = some handler →
        handler { t with logger }.view = handler { t with logger := logger' }.view := by
      intro handler hhandler
      rcases hunasked with ⟨hcarried, hworks⟩ | hpresent
      · have hblind : Handler.Blind View.unlogged handler := by
          rcases hhandler with hcarries | hhandle
          · exact hcarried handler (carries_logger hcarries)
          · exact (List.forall_mem_cons.mp hworks).1 handler hhandle
        exact (hblind _).symm.trans ((congrArg handler (view_unlogged _ _)).trans (hblind _))
      · rw [view_logger (List.cons.inj hpresent).1]
    have hresponse : ({ t with logger }.respond depth holdings machine context work).unlogged =
        ({ t with logger := logger' }.respond depth holdings machine context work).unlogged :=
      IsQuiet.respond_unlogged (t := { t with logger }) hlogger hlogger' depth holdings machine
        context hsame
    have hholdings := congrArg Response.holdings hresponse
    simp only [Response.unlogged] at hholdings
    rw [respondAll, respondAll, List.map_cons, List.map_cons, hresponse, hholdings]
    refine congrArg _ (ih hrest.symm hquiet hquiet' ?_ _)
    exact hunasked.imp (fun h => ⟨h.1, (List.forall_mem_cons.mp h.2).2⟩)
      fun h => (List.cons.inj h).2

theorem carries_equip {t : Table η κ} {f : η → Handler σ ρ} {handler : Handler σ ρ}
    (h : (t.equip f logger).Carries handler) : ∃ x, f x = handler := by
  cases h with
  | entry h =>
    simp only [equip, map, entryHandler?, Array.getElem?_map] at h
    obtain ⟨slot, hslot, hhandler⟩ := Option.bind_eq_some_iff.mp h
    obtain ⟨slot, -, rfl⟩ := Option.map_eq_some_iff.mp hslot
    obtain ⟨x, -, hx⟩ := Option.map_eq_some_iff.mp hhandler
    exact ⟨x, hx⟩
  | @override s e i target _ _ h =>
    simp only [equip, map, transitionAt, Array.getElem?_map] at h
    cases hline : t.lines[i]? with
    | none => simp [hline] at h
    | some d =>
      cases d with
      | next _ _ override =>
        simp only [hline, Option.map_some, Line.map, Except.ok.injEq, Prod.mk.injEq,
          Option.map_eq_some_iff] at h
        obtain ⟨-, x, -, hx⟩ := h
        exact ⟨x, hx⟩
      | _ => simp [hline, Line.map] at h

/-- The logger is a pure observer. Two sessions that do the same work with the same machines, but
with any quiet loggers installed, replaced and cleared between the calls, give the same answers and
faults, the same states and contexts and the same notices, and also the same record but for what
the loggers were handed and what they noted. Only a handler can make a difference that asks whether
there is a logger, and only where one session has a logger and the other has none. -/
theorem loggers_observe (t : Table η κ) (f : η → Handler σ ρ)
    {logger logger' : Option (Logger σ ρ)} {acts acts' : List (Act σ ρ)}
    (hwork : acts.filterMap Act.work? = acts'.filterMap Act.work?)
    (hlogger : ∀ l ∈ logger, Quiet l) (hlogger' : ∀ l ∈ logger', Quiet l)
    (hacts : ∀ act ∈ acts, act.Quiet) (hacts' : ∀ act ∈ acts', act.Quiet)
    (hunasked : (∀ x, Handler.Blind View.unlogged (f x)) ∧ (∀ act ∈ acts, act.Blind View.unlogged) ∨
      (Act.works logger acts).map (·.1.isSome) = (Act.works logger' acts').map (·.1.isSome))
    (depth : Nat) (holdings : Holdings σ) :
    let responses := (t.equip f logger).responses depth holdings acts
    let responses' := (t.equip f logger').responses depth holdings acts'
    responses.map Response.unlogged = responses'.map Response.unlogged ∧
      responses.map (fun response => notices response.record) =
        responses'.map (fun response => notices response.record) := by
  have hworks : (Act.works logger acts).map Prod.snd = (Act.works logger' acts').map Prod.snd := by
    rw [Act.map_snd_works, Act.map_snd_works, hwork]
  have hcarried : (∀ x, Handler.Blind View.unlogged (f x)) →
      ∀ handler, (t.equip f none).Carries handler → Handler.Blind View.unlogged handler := by
    intro hblind handler hcarries
    obtain ⟨x, rfl⟩ := carries_equip hcarries
    exact hblind x
  have h : ((t.equip f logger).responses depth holdings acts).map Response.unlogged =
      ((t.equip f logger').responses depth holdings acts').map Response.unlogged := by
    have hall := (t.equip f none).respondAll_unlogged hworks (Act.quiet_works hlogger hacts)
      (Act.quiet_works hlogger' hacts')
      (hunasked.imp_left fun h => ⟨hcarried h.1, Act.blind_works h.2⟩) depth holdings
    rwa [← responses_eq, ← responses_eq] at hall
  have hnotices := congrArg (List.map fun response => notices response.record) h
  simp only [List.map_map, Function.comp_def, Response.unlogged, notices_unlogged] at hnotices
  exact ⟨h, hnotices⟩

end Table

/-- The first logger notes every message and is cleared between the calls. The second session has
none from the start. -/
theorem turnstile_unlogged : ∃ t : Table Unit Unit,
    (Blueprint.build ⟨"turnstile", { repeats := .lastWins }, none⟩ turnstile).1 = .ok t ∧
      let noting : Logger Nat String := fun _ message => ⟨[message], none⟩
      let work : Work Nat String := .call (.step ⟨1⟩)
      let holdings : Holdings Nat := ⟨fun _ => ⟨1⟩, fun _ => 0⟩
      ((t.equip (fun _ => Table.jumpTo ⟨2⟩) (some noting)).responses 1 holdings
          [.perform 0 0 work, .clearLogger, .perform 1 0 work]).map Response.unlogged =
        ((t.equip (fun _ => Table.jumpTo ⟨2⟩) none).responses 1 holdings
          [.perform 0 0 work, .perform 1 0 work]).map Response.unlogged := by
  obtain ⟨t, hbuilt, -⟩ := turnstile_built (none : Option Unit)
  refine ⟨t, hbuilt, ?_⟩
  refine (Table.loggers_observe t _ rfl ?_ ?_ ?_ ?_ (.inl ⟨fun _ _ => rfl, ?_⟩) 1 _).1
  · intro logger hlogger c message
    obtain rfl := Option.some.inj hlogger
    rfl
  · intro logger hlogger
    cases hlogger
  · simp [Act.Quiet]
  · simp [Act.Quiet]
  · simp [Act.Blind, Work.Blind, Work.handler?]

/-- The override of the turnstile asks for a logger, and one that does nothing is enough to change what
it does to the context. -/
theorem turnstile_shows_logger : ∃ t : Table Unit Unit,
    (Blueprint.build ⟨"turnstile", { repeats := .lastWins }, none⟩ turnstile).1 = .ok t ∧
      let silent : Logger Nat Unit := fun _ _ => {}
      let asking : Unit → Handler Nat Unit := fun _ view _ =>
        if view.hasLogger then .setContext 1 (.done ()) else .done ()
      let holdings : Holdings Nat := ⟨fun _ => ⟨1⟩, fun _ => 0⟩
      let acts : List (Act Nat Unit) := [.perform 0 0 (.call (.step ⟨1⟩))]
      Quiet silent ∧
        ((t.equip asking (some silent)).responses 0 holdings acts).map (·.holdings.contexts 0) = [1] ∧
        ((t.equip asking none).responses 0 holdings acts).map (·.holdings.contexts 0) = [0] := by
  obtain ⟨t, hbuilt, -⟩ := turnstile_built (none : Option Unit)
  refine ⟨t, hbuilt, fun _ _ => rfl, ?_, ?_⟩
  · exact (Blueprint.contexts_step hbuilt _ _ 0 _ 0 0 ⟨1⟩).trans rfl
  · exact (Blueprint.contexts_step hbuilt _ _ 0 _ 0 0 ⟨1⟩).trans rfl

end StateMachine

import StateMachine.Proofs.Confinement
import StateMachine.Proofs.Faults
import StateMachine.Proofs.Hearing
import StateMachine.Proofs.Prediction

namespace StateMachine
variable {η κ σ ρ α β : Type}

/-- What is observed of forced entries, and of nothing else: messages to the logger, notices of moves,
and entry handlers that begin. -/
def Occurrence.ofEntry : Occurrence σ ρ → Bool
  | .logged .. | .reported (.entered ..) | .began .entry .. => true
  | _ => false

namespace Account

theorem record_andThen (a : Account σ ρ α) (f : α → StateId → σ → Account σ ρ β) :
    ∃ later, (a.andThen f).record = a.record ++ later := by
  obtain ⟨_ | v, s, c, record⟩ := a
  · exact ⟨[], (List.append_nil _).symm⟩
  · exact ⟨_, rfl⟩

theorem record_enclose (a : Account σ ρ α) (role : Role) (s : StateId) (e : EventId) (c : σ) :
    ∃ later, (a.enclose role s e c).record = .began role s e c :: (a.record ++ later) := by
  obtain ⟨later, hlater⟩ := a.record_andThen fun v s c => ⟨.ok v, s, c, [.ended role]⟩
  exact ⟨later, congrArg (List.cons _) hlater⟩

end Account

namespace Routine
variable {calls : Calls σ ρ} {r rest : Routine σ ρ α} {s s' : StateId} {c c' : σ}
  {before : List (Occurrence σ ρ)} {request : Request}

theorem record_request (h : r.request? = some request) :
    ∃ later, (r.exec calls s c).account.record =
      (calls.request request s c).account.record ++ later := by
  cases r with
  | enter target e rest =>
    obtain rfl := Option.some.inj h
    rw [exec, Exec.account_bind, Table.record_request_enter]
    exact Account.record_andThen _ _
  | step e rest =>
    obtain rfl := Option.some.inj h
    rw [exec, Exec.account_bind, Table.record_request_step]
    exact Account.record_andThen _ _
  | _ => cases h

/-- A call that a handler comes to has its record in that of the handler, after what was before. -/
theorem Reaches.record (h : r.Reaches calls s c before rest s' c')
    (hrequest : rest.request? = some request) :
    ∃ later, (r.exec calls s c).account.record =
      before ++ (calls.request request s' c').account.record ++ later := by
  have hrest : ∃ later, (rest.exec calls s' c').account.record =
      (calls.request request s' c').account.record ++ later := record_request hrequest
  obtain ⟨later, hlater⟩ := hrest
  exact ⟨later, by rw [h.account, Account.after, hlater, List.append_assoc]⟩

end Routine

namespace Table
variable {t : Table (Handler σ ρ) (Logger σ ρ)} {ds : Description (Handler σ ρ)} {depth : Nat}
  {s s' target : StateId} {e : EventId} {c c' : σ} {p q : Start σ ρ} {role : Role}
  {handler : Handler σ ρ} {before : List (Occurrence σ ρ)} {request : Request}

theorem record_enter : (t.account ⟨depth, .call (.enter target e), s, c⟩).record =
    (t.enterWith (t.calls depth) target e s c).account.record := record_request_enter

theorem record_step : (t.account ⟨depth, .call (.step e), s, c⟩).record =
    (t.stepWith (t.calls depth) e s c).account.record := record_request_step

theorem record_handle : (t.account ⟨depth, .handle role handler e, s, c⟩).record =
    (((handler t.view e).exec (t.calls depth) s c).account.enclose role s e c).record := by
  rw [account, perform, Exec.account_bind, invoke_enclose]
  exact congrArg Account.record (Account.andThen_answer _ _)

theorem record_nested {rest : Routine σ ρ Unit}
    (h : ((handler : Handler σ ρ) t.view e).Reaches (t.calls (depth + 1)) s c before rest s' c')
    (hrequest : rest.request? = some request) :
    ∃ later, ((handler t.view e).exec (t.calls (depth + 1)) s c).account.record =
      before ++ (t.account ⟨depth, .call request, s', c'⟩).record ++ later := h.record hrequest

/-- A work that another starts has its record in that of the other, and in one piece. -/
theorem Represents.record_of_leads (k : t.Represents ds) (h : t.Leads p before q) :
    ∃ later, (t.account p).record = before ++ (t.account q).record ++ later := by
  cases h with
  | override hcell hat =>
    refine ⟨[], ?_⟩
    rw [record_step, stepWith_override hcell hat, invoke_enclose, record_handle, List.nil_append,
      List.append_nil]
    exact congrArg Account.record (Account.andThen_answer _ _)
  | transition hcell hat =>
    refine ⟨[], ?_⟩
    rw [record_step, stepWith_transition hcell hat, record_enter, List.nil_append, List.append_nil]
    exact congrArg Account.record (Account.andThen_answer _ _)
  | arrival hclear hlog hentry =>
    refine ⟨[], ?_⟩
    rw [record_enter, k.enterWith_clear hclear, hlog, record_handle, List.append_nil]
    dsimp only
    rw [arrive_some hentry, invoke_enclose]
    rfl
  | @nested _ role handler e s c _ _ _ _ _ hreach hrequest =>
    obtain ⟨later, hlater⟩ := record_nested hreach hrequest
    obtain ⟨last, hlast⟩ := Account.record_enclose
      ((handler t.view e).exec (t.calls (_ + 1)) s c).account role s e c
    refine ⟨later ++ last, ?_⟩
    rw [record_handle, hlast, hlater, List.append_assoc, List.append_assoc, List.append_assoc]
    rfl

theorem Represents.record_of_reaches (k : t.Represents ds) (h : t.Reaches p before q) :
    ∃ later, (t.account p).record = before ++ (t.account q).record ++ later := by
  induction h with
  | here => exact ⟨[], (List.append_nil _).symm⟩
  | into h _ ih =>
    obtain ⟨later, hlater⟩ := k.record_of_leads h
    obtain ⟨last, hlast⟩ := ih
    refine ⟨last ++ later, ?_⟩
    rw [hlater, hlast]
    simp only [List.append_assoc]

/-- What a handler comes to lies wholly between its marks. -/
theorem Represents.record_within (k : t.Represents ds)
    (h : t.Reaches ⟨depth, .handle role handler e, s, c⟩ before q)
    (hcall : q.work = .call request) :
    ∃ inside later, before = .began role s e c :: inside ∧
      ((handler t.view e).exec (t.calls depth) s c).account.record =
        inside ++ (t.account q).record ++ later := by
  cases h with
  | here => cases hcall
  | into h hrest =>
    cases h with
    | nested hreach hrequest =>
      obtain ⟨later, hlater⟩ := record_nested hreach hrequest
      obtain ⟨last, hlast⟩ := k.record_of_reaches hrest
      refine ⟨_ ++ _, last ++ later, List.cons_append, ?_⟩
      rw [hlater, hlast]
      simp only [List.append_assoc]

/-- What the record shows of a forced entry: the message to the logger and what that makes of it, the
notice, the assignment, and then the entry handler of the target, if there is one. -/
def entryRecord (t : Table (Handler σ ρ) (Logger σ ρ)) (entryHandler : Option (Handler σ ρ))
    (event source destination : String) (depth : Nat) (s target : StateId) (e : EventId) (c : σ) :
    List (Occurrence σ ρ) :=
  (match t.logger with
    | none => []
    | some logger =>
      let message := s!"event {event} state {source} -> {destination}"
      .logged s message :: (logger c message).notes.map .noted) ++
  [.reported (.entered t.name event source destination), .assigned target] ++
  match entryHandler with
  | none => []
  | some handler =>
    (((handler t.view e).exec (t.calls depth) target c).account.enclose .entry target e c).record

/-- What is observed of an entry when something happens, without what its handlers do. -/
def entryMarks (t : Table (Handler σ ρ) (Logger σ ρ)) : Happening σ ρ → List (Occurrence σ ρ)
  | .passed s target e c =>
    (match t.logger with
      | none => []
      | some _ => [.logged s (t.announcement s target e)]) ++
    [.reported (t.departure s target e)] ++
    match t.entryHandler? target with
    | none => []
    | some _ => [.began .entry target e c]
  | .noted _ => []

theorem record_arrive {calls : Calls σ ρ} : (t.arrive calls target e target c).account.record =
    match t.entryHandler? target with
    | none => []
    | some handler =>
      (((handler t.view e).exec calls target c).account.enclose .entry target e c).record := by
  cases hentry : t.entryHandler? target with
  | none => exact congrArg (fun run => (run target c).account.record) (arrive_none hentry)
  | some handler =>
    rw [arrive_some hentry]
    exact congrArg Account.record (invoke_enclose .entry handler e)

theorem Represents.record_of_clear (k : t.Represents ds) (hquiet : t.IsQuiet) (depth : Nat) (c : σ)
    (hclear : t.breaches s (.enter target e) = []) :
    ∃ event source destination, t.eventName e = .ok event ∧ t.stateName s = .ok source ∧
      t.stateName target = .ok destination ∧
      (t.account ⟨depth, .call (.enter target e), s, c⟩).record =
        t.entryRecord (ds.entryHandler? target) event source destination depth s target e c := by
  obtain ⟨hs, htarget, he⟩ := breaches_enter_eq_nil.mp hclear
  refine ⟨_, _, _, k.eventName_eq he, k.stateName_eq hs, k.stateName_eq htarget, ?_⟩
  rw [record_enter, k.enterWith_clear hclear, hquiet.logFailure?_eq]
  dsimp only
  rw [Account.after, moved, told, announcement, departure, k.eventText_eq he, k.stateText_eq hs,
    k.stateText_eq htarget, ← k.entryHandler?_eq htarget]
  exact congrArg _ record_arrive

theorem filter_told : (t.told s target e c).filter Occurrence.ofEntry =
    match t.logger with
    | none => []
    | some _ => [.logged s (t.announcement s target e)] := by
  unfold told
  cases t.logger with
  | none => rfl
  | some logger =>
    refine congrArg (List.cons _) (List.filter_eq_nil_iff.mpr ?_)
    intro o ho
    obtain ⟨note, -, rfl⟩ := List.mem_map.mp ho
    exact Bool.false_ne_true

/-- Marks of entries tell the moves in the course of a work, and nothing else that happens. -/
theorem Represents.marks_eq (k : t.Represents ds) (hquiet : t.IsQuiet) (p : Start σ ρ)
    (hp : ∀ role handler e, p.work = .handle role handler e → role ≠ .entry) :
    (t.account p).record.filter Occurrence.ofEntry = (t.happenings p).flatMap t.entryMarks := by
  rw [← List.filterMap_eq_filter]
  refine Tells.account ⟨fun _ => rfl, ?_, ?_, fun _ => rfl, fun _ _ _ => rfl, ?_, fun _ => rfl⟩ k p ?_
  · intro s target e c message hmessage
    rw [hquiet.logFailure?_eq] at hmessage
    cases hmessage
  · intro s target e c _
    rw [List.filterMap_eq_filter, moved, List.filter_append, filter_told, entryMarks,
      List.append_assoc, List.append_assoc]
    cases t.entryHandler? target <;> rfl
  · intro role hrole s e c
    cases role with
    | entry => exact absurd rfl hrole
    | override => rfl
    | direct => rfl
  · intro role handler e hwork s c
    cases role with
    | entry => exact absurd rfl (hp _ _ _ hwork)
    | override => rfl
    | direct => rfl

/-- What the record of a work shows of forced entries. -/
structure ShowsEntries (t : Table (Handler σ ρ) (Logger σ ρ)) (ds : Description (Handler σ ρ))
    (p : Start σ ρ) : Prop where
  /-- Every entry that passes its checks has a piece of the record, after what was before. -/
  each : ∀ before depth target e s c, t.Reaches p before ⟨depth, .call (.enter target e), s, c⟩ →
    t.breaches s (.enter target e) = [] →
    ∃ event source destination later, t.eventName e = .ok event ∧ t.stateName s = .ok source ∧
      t.stateName target = .ok destination ∧
      (t.account p).record = before ++
        t.entryRecord (ds.entryHandler? target) event source destination depth s target e c ++ later
  /-- What comes of a handler is a piece of its own record, which lies between its marks. -/
  within : ∀ before depth role handler e s c,
    t.Reaches p before ⟨depth, .handle role handler e, s, c⟩ →
    let own := ((handler t.view e).exec (t.calls depth) s c).account
    (∃ later, (t.account p).record = before ++ (own.enclose role s e c).record ++ later) ∧
      ∀ made q request, t.Reaches ⟨depth, .handle role handler e, s, c⟩ made q →
        q.work = .call request → ∃ inside later, made = .began role s e c :: inside ∧
          own.record = inside ++ (t.account q).record ++ later
  /-- The marks of entries are those of the entries that the work comes to, one after the other. -/
  once : (t.account p).record.filter Occurrence.ofEntry = (t.happenings p).flatMap t.entryMarks
  passed : ∀ s target e c, .passed s target e c ∈ t.happenings p ↔ ∃ before depth,
    t.Reaches p before ⟨depth, .call (.enter target e), s, c⟩ ∧ t.breaches s (.enter target e) = []
  /-- The states that loggers and handlers are shown are held at that moment. -/
  held : Traces (fun _ => True) p.state (t.account p).record (t.account p).state

theorem Represents.account_traces (k : t.Represents ds) (p : Start σ ρ) :
    Traces (fun _ => True) p.state (t.account p).record (t.account p).state := by
  have hstay (depth : Nat) : (t.calls depth).Stay fun _ => True :=
    k.calls_stay (fun _ _ => trivial) (fun _ _ _ _ _ => trivial) depth
  obtain ⟨depth, work, s, c⟩ := p
  cases work with
  | call request => exact (hstay (depth + 1)).request request trivial
  | handle role handler e =>
    rw [account, perform, Exec.account_bind]
    exact (invoke_stays (hstay depth) (fun _ _ => trivial) role trivial).andThen
      fun _ s c _ => .here trivial

theorem Represents.shows_entries (k : t.Represents ds) (hquiet : t.IsQuiet) {p : Start σ ρ}
    (hp : ∀ role handler e, p.work = .handle role handler e → role ≠ .entry) :
    t.ShowsEntries ds p where
  each before depth target e s c hreach hclear := by
    obtain ⟨event, source, destination, hevent, hsource, hdestination, hrecord⟩ :=
      k.record_of_clear hquiet depth c hclear
    obtain ⟨later, hlater⟩ := k.record_of_reaches hreach
    exact ⟨event, source, destination, later, hevent, hsource, hdestination, hrecord ▸ hlater⟩
  within before depth role handler e s c hreach := by
    obtain ⟨later, hlater⟩ := k.record_of_reaches hreach
    exact ⟨⟨later, record_handle ▸ hlater⟩, fun made q request hmade => k.record_within hmade⟩
  once := k.marks_eq hquiet p hp
  passed s target e c := mem_happenings_iff t p _
  held := k.account_traces p

/-- The works of a session, each with the table as it is then and with what it finds. -/
def works (t : Table (Handler σ ρ) (Logger σ ρ)) (depth : Nat) (holdings : Holdings σ) :
    List (Act σ ρ) → List (Table (Handler σ ρ) (Logger σ ρ) × Start σ ρ)
  | [] => []
  | .perform machine context work :: rest =>
    (t, ⟨depth, work, holdings.machines machine, holdings.contexts context⟩) ::
      t.works depth (t.respond depth holdings machine context work).holdings rest
  | .setLogger logger :: rest => (t.setLogger logger).works depth holdings rest
  | .clearLogger :: rest => t.clearLogger.works depth holdings rest

theorem record_responses (t : Table (Handler σ ρ) (Logger σ ρ)) (depth : Nat) (holdings : Holdings σ)
    (acts : List (Act σ ρ)) :
    (t.responses depth holdings acts).flatMap (·.record) =
      (t.works depth holdings acts).flatMap fun (t, p) => (t.account p).record := by
  induction acts generalizing t holdings with
  | nil => rfl
  | cons act rest ih =>
    cases act with
    | perform machine context work => exact congrArg (_ ++ ·) (ih t _)
    | setLogger logger => exact ih _ holdings
    | clearLogger => exact ih _ holdings

/-- Between the works only the logger changes, and stays quiet. -/
theorem works_equip {t : Table η κ} {f : η → Handler σ ρ} {logger : Option (Logger σ ρ)}
    (hlogger : ∀ l ∈ logger, Quiet l) {acts : List (Act σ ρ)} (hacts : ∀ act ∈ acts, act.Quiet)
    {depth : Nat} {holdings : Holdings σ} :
    ∀ x ∈ (t.equip f logger).works depth holdings acts,
      ∃ logger' : Option (Logger σ ρ), (∀ l ∈ logger', Quiet l) ∧ x.1 = t.equip f logger' ∧
        ∃ machine context, .perform machine context x.2.work ∈ acts := by
  induction acts generalizing logger holdings with
  | nil => exact List.forall_mem_nil _
  | cons act rest ih =>
    obtain ⟨hact, hrest⟩ := List.forall_mem_cons.mp hacts
    intro x hx
    cases act with
    | perform machine context work =>
      rcases List.mem_cons.mp hx with rfl | hx
      · exact ⟨logger, hlogger, rfl, machine, context, List.mem_cons_self⟩
      · obtain ⟨logger', hquiet, ht, machine, context, hmem⟩ := ih hlogger hrest x hx
        exact ⟨logger', hquiet, ht, machine, context, List.mem_cons_of_mem _ hmem⟩
    | setLogger l =>
      have hl : ∀ l' ∈ some l, Quiet l' := fun l' hl' => Option.some.inj hl' ▸ hact
      obtain ⟨logger', hquiet, ht, machine, context, hmem⟩ := ih hl hrest x hx
      exact ⟨logger', hquiet, ht, machine, context, List.mem_cons_of_mem _ hmem⟩
    | clearLogger =>
      have hnone : ∀ l ∈ (none : Option (Logger σ ρ)), Quiet l :=
        fun l hl => absurd hl (Option.not_mem_none l)
      obtain ⟨logger', hquiet, ht, machine, context, hmem⟩ := ih hnone hrest x hx
      exact ⟨logger', hquiet, ht, machine, context, List.mem_cons_of_mem _ hmem⟩

end Table

/-- Done by a user of the table, who has no other way to run an entry handler than to enter a state. -/
def Act.Outside : Act σ ρ → Prop
  | perform _ _ (.handle role _ _) => role ≠ .entry
  | _ => True

/-- A ball that is thrown goes up, and does not stay there. -/
def ball : Description Unit :=
  [.event ⟨1⟩ "throw", .state ⟨1⟩ "down", .next ⟨1⟩ ⟨2⟩ none, .state ⟨2⟩ "up", .onEntry ⟨2⟩ ()]

namespace Blueprint
variable {b : Blueprint κ} {ds : Description η} {t : Table η κ}

/-- Every forced entry is observed once and in order. In a session with any handlers and any quiet
loggers, set or cleared between the works, the record is made up of the records of the works, and
each of these shows its entries: every entry that passes its checks has one piece of the record for
itself, in which its handler and all that comes of it is enclosed, and nothing else is observed of
entries, nor is an entry handler begun. -/
theorem entries_observed (h : (b.build ds).1 = .ok t) (f : η → Handler σ ρ)
    {logger : Option (Logger σ ρ)} (hlogger : ∀ l ∈ logger, Quiet l) (depth : Nat)
    (holdings : Holdings σ) (acts : List (Act σ ρ))
    (hacts : ∀ act ∈ acts, act.Quiet ∧ act.Outside) :
    let works := (t.equip f logger).works depth holdings acts
    ((t.equip f logger).responses depth holdings acts).flatMap (·.record) =
        works.flatMap (fun (t, p) => (t.account p).record) ∧
      ∀ x ∈ works, x.1.ShowsEntries (ds.map (Line.map f)) x.2 := by
  refine ⟨Table.record_responses _ depth holdings acts, ?_⟩
  intro x hx
  obtain ⟨logger', hquiet, ht, machine, context, hmem⟩ :=
    Table.works_equip hlogger (fun act hact => (hacts act hact).1) x hx
  have k := (ready_of_build h f logger').toRepresents
  obtain ⟨t', p⟩ := x
  obtain rfl : t' = t.equip f logger' := ht
  refine k.shows_entries hquiet ?_
  intro role handler e hwork
  have houtside := (hacts _ hmem).2
  rw [hwork] at houtside
  exact houtside

/-- The fall of the ball is observed within the entry handler that brings it about. -/
theorem ball_observed : ∃ t : Table Unit Unit, (build ⟨"ball", {}, none⟩ ball).1 = .ok t ∧
    let noting : Logger Unit String := fun _ message => ⟨[message], none⟩
    let t' := t.equip (fun _ => Table.jumpTo ⟨1⟩) (some noting)
    ∃ later, (t'.account ⟨1, .call (.step ⟨1⟩), ⟨1⟩, ()⟩).record =
      t'.moved ⟨1⟩ ⟨2⟩ ⟨1⟩ () ++ [.began .entry ⟨2⟩ ⟨1⟩ ()] ++
        [.logged ⟨2⟩ "event throw state up -> down", .noted "event throw state up -> down",
          .reported (.entered "ball" "throw" "up" "down"), .assigned ⟨1⟩] ++ later := by
  have hcheck : ball.check {} = .ok ⟨3, 2, 5⟩ := by decide
  obtain ⟨t, hbuild, k, hname, -⟩ := build_ok (κ := Unit)
    (b := (⟨"ball", {}, none⟩ : Blueprint Unit)) hcheck
  have hbuilt := congrArg Prod.fst hbuild
  refine ⟨t, hbuilt, ?_⟩
  intro noting t'
  have hnoting : ∀ l ∈ some noting, Quiet l := by
    intro l hl c message
    obtain rfl := Option.some.inj hl
    rfl
  have k' := (ready_of_build hbuilt (fun _ => (Table.jumpTo ⟨1⟩ : Handler Unit String))
    (some noting)).toRepresents
  have hcell : t'.cell ⟨1⟩ ⟨1⟩ = .ok (some 2) :=
    k'.cell_eq (by rw [k'.stateLimit]; decide) (by rw [k'.eventLimit]; decide)
  have hat : t'.transitionAt 2 = .ok (⟨2⟩, none) :=
    k'.transitionAt_eq (r := ⟨2, ⟨1⟩, ⟨2⟩, none⟩) (Description.mem_rules_iff.mpr rfl)
  have hclear (s target : StateId) (hs : s.index < 3) (htarget : target.index < 3) :
      t'.breaches s (.enter target ⟨1⟩) = [] := by
    rw [Table.breaches_enter_eq_nil, k'.stateLimit, k'.eventLimit]
    exact ⟨hs, htarget, by decide⟩
  have hentry : t'.entryHandler? ⟨2⟩ = some (Table.jumpTo ⟨1⟩) :=
    k'.entryHandler?_eq (by rw [k'.stateLimit]; decide)
  have hreach : t'.Reaches ⟨1, .call (.step ⟨1⟩), ⟨1⟩, ()⟩ _
      ⟨0, .call (.enter ⟨1⟩ ⟨1⟩), ⟨2⟩, ()⟩ :=
    .into (.transition hcell hat) (.into (.arrival (hclear _ _ (by decide) (by decide)) rfl hentry)
      (.into (.nested .here rfl) .here))
  obtain ⟨-, hshows⟩ := entries_observed hbuilt (fun _ => Table.jumpTo ⟨1⟩) hnoting 1
    ⟨fun _ => ⟨1⟩, fun _ => ()⟩ [.perform 0 0 (.call (.step ⟨1⟩))] (by simp [Act.Quiet, Act.Outside])
  obtain ⟨event, source, destination, later, hevent, hsource, hdestination, hrecord⟩ :=
    (hshows _ List.mem_cons_self).each _ _ _ _ _ _ hreach (hclear _ _ (by decide) (by decide))
  have hone : t'.eventName ⟨1⟩ = .ok "throw" := k'.eventName_eq (by rw [k'.eventLimit]; decide)
  have hup : t'.stateName ⟨2⟩ = .ok "up" := k'.stateName_eq (by rw [k'.stateLimit]; decide)
  have hdown : t'.stateName ⟨1⟩ = .ok "down" := k'.stateName_eq (by rw [k'.stateLimit]; decide)
  obtain rfl := Except.ok.inj (hone.symm.trans hevent)
  obtain rfl := Except.ok.inj (hup.symm.trans hsource)
  obtain rfl := Except.ok.inj (hdown.symm.trans hdestination)
  have hname' : t'.name = "ball" := hname
  rw [← hname']
  exact ⟨later, hrecord⟩

end Blueprint
end StateMachine

import StateMachine.Proofs.NormalForm
import StateMachine.Proofs.Observers

namespace StateMachine
variable {η κ σ ρ α β : Type}

/-- The state of a machine after something has happened to it in a given state. -/
def Occurrence.leave (s : StateId) : Occurrence σ ρ → StateId
  | .assigned s' => s'
  | _ => s

/-- Loggers and handlers are shown the machine as it is. -/
def Occurrence.Shows (s : StateId) : Occurrence σ ρ → Prop
  | .logged s' _ | .began _ s' _ _ => s' = s
  | _ => True

/-- A record traces a machine from the state in which it was found to the one in which it is left.
At every moment its state has the property, and is what loggers and handlers are shown. -/
inductive Traces (P : StateId → Prop) : StateId → List (Occurrence σ ρ) → StateId → Prop where
  | here {s} (h : P s) : Traces P s [] s
  | next {s o later last} (h : P s) (hshown : o.Shows s) (tail : Traces P (o.leave s) later last) :
    Traces P s (o :: later) last

namespace Traces
variable {P : StateId → Prop} {s middle last : StateId} {earlier later : List (Occurrence σ ρ)}

theorem append (h : Traces P s earlier middle) (h' : Traces P middle later last) :
    Traces P s (earlier ++ later) last := by
  induction h with
  | here => exact h'
  | next h hshown _ ih => exact .next h hshown (ih h')

theorem at_last (h : Traces P s earlier last) : P last := by
  induction h with
  | here h => exact h
  | next _ _ _ ih => exact ih

theorem imp {Q : StateId → Prop} (hPQ : ∀ s, P s → Q s) (h : Traces P s earlier last) :
    Traces Q s earlier last := by
  induction h with
  | here h => exact .here (hPQ _ h)
  | next h hshown _ ih => exact .next (hPQ _ h) hshown ih

/-- Something that leaves the machine where it is. -/
theorem stay (h : P s) {o : Occurrence σ ρ} (hshown : o.Shows s) (hleave : o.leave s = s) :
    Traces P s [o] s := by
  refine .next h hshown ?_
  rw [hleave]
  exact .here h

theorem noted (h : P s) (notes : List ρ) :
    Traces P s (notes.map Occurrence.noted : List (Occurrence σ ρ)) s := by
  induction notes with
  | nil => exact .here h
  | cons note notes ih => exact .next h trivial ih

end Traces

/-- The record of a run traces its machine. -/
def Account.Stays (P : StateId → Prop) (s : StateId) (a : Account σ ρ α) : Prop :=
  Traces P s a.record a.state

namespace Account.Stays
variable {P : StateId → Prop} {s s' : StateId} {a : Account σ ρ α} {f : α → StateId → σ → Account σ ρ β}

theorem after {earlier : List (Occurrence σ ρ)} (h : Traces P s earlier s') (ha : a.Stays P s') :
    (a.after earlier).Stays P s := h.append ha

theorem andThen (h : a.Stays P s) (hf : ∀ v s c, P s → (f v s c).Stays P s) :
    (a.andThen f).Stays P s := by
  obtain ⟨_ | v, s', c, record⟩ := a
  · exact h
  · exact after h (hf v s' c h.at_last)

end Account.Stays

/-- Calls that trace every machine which has the property when they start. -/
structure Calls.Stay (P : StateId → Prop) (calls : Calls σ ρ) : Prop where
  enter : ∀ target e s c, P s → (calls.enter target e s c).account.Stays P s
  step : ∀ e s c, P s → (calls.step e s c).account.Stays P s

theorem Routine.exec_stays {P : StateId → Prop} {calls : Calls σ ρ} (hcalls : calls.Stay P)
    {r : Routine σ ρ α} (hassign : ∀ s, r.Assigns s → P s) {s : StateId} {c : σ} (hs : P s) :
    (r.exec calls s c).account.Stays P s := by
  induction r generalizing s c with
  | done a => exact .here hs
  | fail fault => exact .here hs
  | getState rest ih => simpa [exec] using ih s (fun s' h => hassign s' (.getState h)) hs
  | setState s₁ rest ih =>
    have hs₁ := hassign s₁ .here
    simp only [exec, Exec.account_bind, Exec.account_assign, Account.andThen_ok]
    exact .after (.next hs trivial (.here hs₁)) (ih (fun s' h => hassign s' (.setState h)) hs₁)
  | getContext rest ih => simpa [exec] using ih c (fun s' h => hassign s' (.getContext h)) hs
  | setContext c₁ rest ih => simpa [exec] using ih (fun s' h => hassign s' (.setContext h)) hs
  | note n rest ih =>
    simp only [exec, Exec.account_bind, Exec.account_tell, Account.andThen_ok]
    exact .after (.stay hs trivial rfl) (ih (fun s' h => hassign s' (.note h)) hs)
  | enter target e rest ih =>
    simp only [exec, Exec.account_bind]
    exact (hcalls.enter target e s c hs).andThen fun _ s c hs =>
      ih (fun s' h => hassign s' (.enter h)) hs
  | step e rest ih =>
    simp only [exec, Exec.account_bind]
    exact (hcalls.step e s c hs).andThen fun d s c hs =>
      ih d (fun s' h => hassign s' (.step h)) hs

namespace Table
variable {t : Table (Handler σ ρ) (Logger σ ρ)} {ds : Description (Handler σ ρ)} {calls : Calls σ ρ}
  {P : StateId → Prop} {s target : StateId} {e : EventId} {c : σ}

theorem invoke_stays (hcalls : calls.Stay P) {handler : Handler σ ρ}
    (hassign : ∀ s, (handler t.view e).Assigns s → P s) (role : Role) (hs : P s) :
    (t.invoke calls role handler e s c).account.Stays P s := by
  rw [invoke_account]
  refine .after (.stay hs rfl rfl) ((Routine.exec_stays hcalls hassign hs).andThen ?_)
  exact fun _ s c hs => .stay hs trivial rfl

theorem told_traces (hs : P s) (target : StateId) (e : EventId) (c : σ) :
    Traces P s (t.told s target e c) s := by
  unfold told
  cases t.logger with
  | none => exact .here hs
  | some logger => exact .next hs rfl (.noted hs _)

theorem moved_traces (hs : P s) (htarget : P target) (e : EventId) (c : σ) :
    Traces P s (t.moved s target e c) target :=
  (told_traces hs target e c).append (.next hs trivial (.next hs trivial (.here htarget)))

/-- A move that is made ends in range, and all that comes after it starts there. -/
theorem Represents.enterWith_stays (k : t.Represents ds) (hrange : ∀ s, s.index < t.stateLimit → P s)
    (hcalls : calls.Stay P)
    (hassign : ∀ handler, t.Carries handler → ∀ e s, (handler t.view e).Assigns s → P s)
    (hs : P s) : (t.enterWith calls target e s c).account.Stays P s := by
  cases hhead : (t.breaches s (.enter target e)).head? with
  | some fault =>
    rw [enterWith_breach hhead]
    exact .here hs
  | none =>
    have hclear := List.head?_eq_none_iff.mp hhead
    have htarget := hrange target (breaches_enter_eq_nil.mp hclear).2.1
    rw [k.enterWith_clear hclear]
    cases t.logFailure? s target e c with
    | some message => exact told_traces hs target e c
    | none =>
      refine .after (moved_traces hs htarget e c) ?_
      cases hentry : t.entryHandler? target with
      | none =>
        rw [arrive_none hentry]
        exact .here htarget
      | some handler =>
        rw [arrive_some hentry]
        exact invoke_stays hcalls (hassign handler (.entry hentry) e) .entry htarget

theorem Represents.stepWith_stays (k : t.Represents ds) (hrange : ∀ s, s.index < t.stateLimit → P s)
    (hcalls : calls.Stay P)
    (hassign : ∀ handler, t.Carries handler → ∀ e s, (handler t.view e).Assigns s → P s)
    (hs : P s) : (t.stepWith calls e s c).account.Stays P s := by
  cases hhead : (t.breaches s (.step e)).head? with
  | some fault =>
    rw [stepWith_breach hhead]
    exact .here hs
  | none =>
    have hclear := List.head?_eq_none_iff.mp hhead
    rcases k.cell_cases hclear with hcell | ⟨⟨i, e', target, override⟩, -, hcell, hat⟩
    · rw [k.stepWith_ignored hclear hcell]
      exact .stay hs trivial rfl
    · cases override with
      | none =>
        rw [stepWith_transition hcell hat]
        exact (k.enterWith_stays hrange hcalls hassign hs).andThen fun _ s c hs => .here hs
      | some handler =>
        rw [stepWith_override hcell hat]
        have hinvoke := invoke_stays hcalls (c := c) (hassign handler (.override hcell hat) e) .override hs
        exact hinvoke.andThen fun _ s c hs => .here hs

/-- Whatever is true of all states in range, and of those that handlers set by themselves, stays true
of a machine. The depth carries the induction. -/
theorem Represents.calls_stay (k : t.Represents ds) (hrange : ∀ s, s.index < t.stateLimit → P s)
    (hassign : ∀ handler, t.Carries handler → ∀ e s, (handler t.view e).Assigns s → P s)
    (depth : Nat) : (t.calls depth).Stay P := by
  induction depth with
  | zero => exact ⟨fun _ _ _ _ hs => .here hs, fun _ _ _ hs => .here hs⟩
  | succ depth ih =>
    exact ⟨fun _ _ _ _ hs => k.enterWith_stays hrange ih hassign hs,
      fun _ _ _ hs => k.stepWith_stays hrange ih hassign hs⟩

theorem IsQuiet.logFailure?_eq (hquiet : t.IsQuiet) : t.logFailure? s target e c = none := by
  unfold logFailure?
  cases hlogger : t.logger with
  | none => rfl
  | some logger => exact hquiet logger hlogger c _

/-- Without handlers a step with its numbers in range returns. It stays where it is, or goes where its
transition leads. -/
theorem Ready.stepWith_traces (k : t.Ready ds) (calls : Calls σ ρ) (c : σ)
    (hplain : ∀ d ∈ ds.active, d.handler? = none) (hquiet : t.IsQuiet)
    (hclear : t.breaches s (.step e) = []) (hs : P s)
    (htarget : ∀ r, ds.rule? s e = some r → P r.target) :
    ∃ outcome last record, (t.stepWith calls e s c).account = ⟨.ok outcome, last, c, record⟩ ∧
      Traces P s record last ∧ (ds.rule? s e = none → outcome = .ignored) := by
  rw [k.stepWith_plain hplain hclear]
  cases hr : ds.rule? s e with
  | none => exact ⟨.ignored, s, _, rfl, .stay hs trivial rfl, fun _ => rfl⟩
  | some r =>
    obtain ⟨hs', he⟩ := breaches_step_eq_nil.mp hclear
    have hrange := (k.target r (Description.declares_of_rule? hr).1).2
    dsimp only
    rw [k.enterWith_plain hplain (breaches_enter_eq_nil.mpr ⟨hs', hrange, he⟩), hquiet.logFailure?_eq]
    refine ⟨.entered r.target, r.target, _, rfl, ?_, fun hnone => by cases hnone⟩
    rw [List.append_nil]
    exact moved_traces hs (htarget r hr) e c

end Table

section Sessions
variable {calls : Calls σ ρ} {holdings : Holdings σ} {machine : Nat} {P : StateId → Prop}

/-- All through a session a machine has the property: at every moment of the record, and whenever a
call has returned or failed. -/
structure Remains (P : StateId → Prop) (machine : Nat) (holdings : Holdings σ)
    (responses : List (Response σ ρ)) : Prop where
  moments : Traces P (holdings.machines machine) (responses.flatMap (·.record))
    ((holdings.finally responses).machines machine)
  turns : ∀ response ∈ responses, P (response.holdings.machines machine)

theorem Remains.imp {Q : StateId → Prop} (hPQ : ∀ s, P s → Q s) {responses : List (Response σ ρ)}
    (h : Remains P machine holdings responses) : Remains Q machine holdings responses :=
  ⟨h.moments.imp hPQ, fun response hresponse => hPQ _ (h.turns response hresponse)⟩

/-- Turn by turn the traces join, as long as the turns are as they should be. -/
theorem Calls.transcript_remains_while {Q R : Response σ ρ → Prop} {turns : List Turn}
    (hturns : ∀ turn ∈ turns, ∀ holdings : Holdings σ, P (holdings.machines machine) →
      let response := calls.respond holdings turn
      R response →
        Traces P (holdings.machines machine) response.record (response.holdings.machines machine) ∧
          Q response)
    (hR : ∀ response ∈ calls.transcript holdings turns, R response)
    (hs : P (holdings.machines machine)) :
    Remains P machine holdings (calls.transcript holdings turns) ∧
      ∀ response ∈ calls.transcript holdings turns, Q response := by
  induction turns generalizing holdings with
  | nil => exact ⟨⟨.here hs, List.forall_mem_nil _⟩, List.forall_mem_nil _⟩
  | cons turn rest ih =>
    obtain ⟨hturn, hrest⟩ := List.forall_mem_cons.mp hturns
    obtain ⟨hfirst, hR⟩ := List.forall_mem_cons.mp hR
    obtain ⟨htraces, hQ⟩ := hturn holdings hs hfirst
    obtain ⟨⟨hmoments, hlater⟩, hQs⟩ := ih hrest hR htraces.at_last
    refine ⟨⟨?_, List.forall_mem_cons.mpr ⟨htraces.at_last, hlater⟩⟩,
      List.forall_mem_cons.mpr ⟨hQ, hQs⟩⟩
    simp only [Calls.transcript, List.flatMap_cons, Holdings.finally, List.map_cons,
      List.getLastD_cons]
    exact htraces.append hmoments

theorem Calls.transcript_remains {Q : Response σ ρ → Prop} {turns : List Turn}
    (hturns : ∀ turn ∈ turns, ∀ holdings : Holdings σ, P (holdings.machines machine) →
      let response := calls.respond holdings turn
      Traces P (holdings.machines machine) response.record (response.holdings.machines machine) ∧
        Q response)
    (hs : P (holdings.machines machine)) :
    Remains P machine holdings (calls.transcript holdings turns) ∧
      ∀ response ∈ calls.transcript holdings turns, Q response :=
  transcript_remains_while (R := fun _ => True)
    (fun turn hturn holdings hs _ => hturns turn hturn holdings hs) (fun _ _ => trivial) hs

theorem Calls.Stay.request (h : calls.Stay P) (request : Request) {s : StateId} {c : σ} (hs : P s) :
    (calls.request request s c).account.Stays P s := by
  cases request with
  | step e =>
    rw [Calls.account_step]
    exact h.step e s c hs
  | enter target e =>
    rw [Calls.account_enter]
    exact h.enter target e s c hs

theorem Calls.Stay.respond_traces (h : calls.Stay P) {turn : Turn} (hturn : turn.machine = machine)
    (hs : P (holdings.machines machine)) :
    let response := calls.respond holdings turn
    Traces P (holdings.machines machine) response.record (response.holdings.machines machine) := by
  subst hturn
  simpa [Calls.respond_eq, Holdings.put, Account.Stays] using h.request turn.request hs

/-- A session of steps on a table without handlers. Its machine keeps every property of states in range
that no transition takes away, and each step returns. -/
theorem Table.Ready.session_plain {t : Table (Handler σ ρ) (Logger σ ρ)}
    {ds : Description (Handler σ ρ)} (k : t.Ready ds) (holdings : Holdings σ) (machine : Nat)
    (hplain : ∀ d ∈ ds.active, d.handler? = none) (hquiet : t.IsQuiet)
    (hrange : ∀ s, P s → s.index < t.stateLimit)
    (htarget : ∀ s e r, P s → ds.rule? s e = some r → P r.target) {turns : List Turn}
    (hsteps : ∀ turn ∈ turns, turn.machine = machine ∧
      ∃ e, turn.request = .step e ∧ e.index < t.eventLimit) (depth : Nat)
    (hs : P (holdings.machines machine)) :
    let responses := (t.calls (depth + 1)).transcript holdings turns
    Remains P machine holdings responses ∧ ∀ response ∈ responses,
      ∃ outcome, response.outcome = .ok (some outcome) ∧
        ((∀ s e, P s → ds.rule? s e = none) → outcome = .ignored) := by
  refine Calls.transcript_remains (fun turn hturn holdings hs => ?_) hs
  obtain ⟨rfl, e, he, hevent⟩ := hsteps turn hturn
  have hclear := breaches_step_eq_nil.mpr ⟨hrange _ hs, hevent⟩
  obtain ⟨outcome, last, record, haccount, htraces, hignored⟩ :=
    k.stepWith_traces (t.calls depth) (holdings.contexts turn.context) hplain hquiet hclear hs
      fun r => htarget _ e r hs
  rw [Calls.respond_eq, he, Calls.account_step, Table.calls, haccount]
  refine ⟨?_, outcome, rfl, fun hnone => hignored (hnone _ e hs)⟩
  simpa [Holdings.put] using htraces

end Sessions

/-- A state that a machine may be in: it is in range, and it has a name. -/
def Table.Has (t : Table η κ) (s : StateId) : Prop :=
  s.index < t.stateLimit ∧ ∃ name, t.stateName? s = some name ∧ name ≠ ""

namespace Blueprint
variable {b : Blueprint κ} {ds : Description η} {t : Table η κ}

theorem has_of_build (h : (b.build ds).1 = .ok t) {s : StateId} (hs : s.index < t.stateLimit) :
    t.Has s := by
  obtain ⟨hlawful, k, -, -⟩ := represents_of_build h
  have hlimit := k.stateLimit
  refine ⟨hs, ds.nameOf s, ?_, hlawful.state_named (by omega)⟩
  rw [Table.stateName?, k.states s hs]
  rfl

/-- No transition leaves state 0, and none is on event 0. -/
theorem rule?_reserved (h : (b.build ds).1 = .ok t) (f : η → Handler σ ρ) {s : StateId} {e : EventId}
    (hreserved : s.isReserved = true ∨ e.isReserved = true) :
    Description.rule? (ds.map (Line.map f)) s e = none := by
  obtain ⟨hlawful, -, -, -⟩ := represents_of_build h
  rw [Description.rule?_map]
  cases hr : ds.rule? s e with
  | none => rfl
  | some r =>
    obtain ⟨hs, he⟩ := hlawful.unreserved (Description.declares_of_rule? hr)
    rw [hs, he] at hreserved
    rcases hreserved with h₀ | h₀ <;> cases h₀

/-- Handlers set nothing by themselves, so only the moves of the table count. -/
theorem session_has (h : (b.build ds).1 = .ok t) (f : η → Handler σ ρ)
    (logger : Option (Logger σ ρ))
    (hindirect : Description.Indirect (ds.map (Line.map f)) (t.equip f logger).view)
    (depth : Nat) {holdings : Holdings σ} {machine : Nat}
    (hstart : (holdings.machines machine).index < t.stateLimit) {turns : List Turn}
    (hturns : ∀ turn ∈ turns, turn.machine = machine) :
    Remains t.Has machine holdings
      (((t.equip f logger).calls depth).transcript holdings turns) := by
  have k := ready_of_build h f logger
  have hassign : ∀ handler, (t.equip f logger).Carries handler →
      ∀ e s, (handler (t.equip f logger).view e).Assigns s → t.Has s := by
    intro handler hcarries e s hassigns
    obtain ⟨d, hd, hhandler⟩ := k.line_of_carries hcarries
    exact absurd hassigns (hindirect d hd handler hhandler e s)
  have hstay := k.calls_stay (fun s hs => has_of_build h hs) hassign depth
  have hremains := Calls.transcript_remains (Q := fun _ => True)
    (fun turn hturn holdings hs => ⟨hstay.respond_traces (hturns turn hturn) hs, trivial⟩)
    (has_of_build h hstart)
  exact hremains.1

theorem step_reserved (h : (b.build ds).1 = .ok t) (f : η → Handler σ ρ)
    (logger : Option (Logger σ ρ)) {depth : Nat} {s : StateId} {e : EventId} {c : σ}
    (hs : s.index < t.stateLimit) (he : e.index < t.eventLimit)
    (hreserved : s.isReserved = true ∨ e.isReserved = true) :
    ∃ notice, ((t.equip f logger).step depth e s c).account =
      ⟨.ok .ignored, s, c, [.reported notice]⟩ := by
  have k := ready_of_build h f logger
  have hclear := Table.breaches_step_eq_nil (t := t.equip f logger).mpr ⟨hs, he⟩
  have hcell := k.cell_eq hs he
  rw [rule?_reserved h f hreserved] at hcell
  exact ⟨_, k.stepWith_ignored hclear hcell⟩

section Plain
variable {f : η → Handler σ ρ} {logger : Option (Logger σ ρ)} {depth machine : Nat}
  {holdings : Holdings σ} {turns : List Turn}

/-- No transition leads to state 0. -/
theorem session_declared (h : (b.build ds).1 = .ok t) (hplain : ∀ d ∈ ds.active, d.handler? = none)
    (hquiet : ∀ l ∈ logger, Quiet l) (hstart : (holdings.machines machine).index < t.stateLimit)
    (hsteps : ∀ turn ∈ turns, turn.machine = machine ∧
      ∃ e, turn.request = .step e ∧ e.index < t.eventLimit)
    (hdeclared : (holdings.machines machine).isReserved = false) :
    let responses := ((t.equip f logger).calls (depth + 1)).transcript holdings turns
    Remains (fun s => s.isReserved = false) machine holdings responses ∧
      ∀ response ∈ responses, ∃ outcome, response.outcome = .ok (some outcome) := by
  have k := ready_of_build h f logger
  obtain ⟨hremains, hresponses⟩ := k.session_plain
    (P := fun s => s.index < t.stateLimit ∧ s.isReserved = false) holdings machine
    (Description.plain_map f hplain) hquiet (fun s hs => hs.1)
    (fun s e r _ hr => (k.target r (Description.declares_of_rule? hr).1).symm) hsteps depth
    ⟨hstart, hdeclared⟩
  refine ⟨hremains.imp fun s hs => hs.2, fun response hresponse => ?_⟩
  obtain ⟨outcome, houtcome, -⟩ := hresponses response hresponse
  exact ⟨outcome, houtcome⟩

/-- State 0 has no transitions. -/
theorem session_reserved (h : (b.build ds).1 = .ok t) (hplain : ∀ d ∈ ds.active, d.handler? = none)
    (hquiet : ∀ l ∈ logger, Quiet l) (hstart : (holdings.machines machine).index < t.stateLimit)
    (hsteps : ∀ turn ∈ turns, turn.machine = machine ∧
      ∃ e, turn.request = .step e ∧ e.index < t.eventLimit)
    (hreserved : (holdings.machines machine).isReserved = true) :
    let responses := ((t.equip f logger).calls (depth + 1)).transcript holdings turns
    Remains (fun s => s.isReserved = true) machine holdings responses ∧
      ∀ response ∈ responses, response.outcome = .ok (some .ignored) := by
  have k := ready_of_build h f logger
  have hnone : ∀ s e, s.index < t.stateLimit ∧ s.isReserved = true →
      Description.rule? (ds.map (Line.map f)) s e = none :=
    fun s e hs => rule?_reserved h f (.inl hs.2)
  obtain ⟨hremains, hresponses⟩ := k.session_plain
    (P := fun s => s.index < t.stateLimit ∧ s.isReserved = true) holdings machine
    (Description.plain_map f hplain) hquiet (fun s hs => hs.1)
    (fun s e r hs hr => by rw [hnone s e hs] at hr; cases hr) hsteps depth ⟨hstart, hreserved⟩
  refine ⟨hremains.imp fun s hs => hs.2, fun response hresponse => ?_⟩
  obtain ⟨outcome, houtcome, hignored⟩ := hresponses response hresponse
  rw [houtcome, hignored hnone]

end Plain

/-- Machines are confined to their table. A machine that is found in range, and moved by calls alone,
has a state of the table at every moment and after every call, returned or failed. In state 0, and
on event 0 in any state, nothing ever happens. And without handlers and with a quiet logger, steps on
events in range all return; they never lead to state 0, and never away from it. -/
theorem states_confined (h : (b.build ds).1 = .ok t) (f : η → Handler σ ρ)
    (logger : Option (Logger σ ρ))
    (hindirect : Description.Indirect (ds.map (Line.map f)) (t.equip f logger).view)
    (depth : Nat) (holdings : Holdings σ) (machine : Nat)
    (hstart : (holdings.machines machine).index < t.stateLimit)
    (turns : List Turn) (hturns : ∀ turn ∈ turns, turn.machine = machine) :
    let responses := ((t.equip f logger).calls (depth + 1)).transcript holdings turns
    Remains t.Has machine holdings responses ∧
      (∀ s e c, s.index < t.stateLimit → e.index < t.eventLimit →
        s.isReserved = true ∨ e.isReserved = true →
        ∃ notice, ((t.equip f logger).step depth e s c).account =
          ⟨.ok .ignored, s, c, [.reported notice]⟩) ∧
      ((∀ d ∈ ds.active, d.handler? = none) → (∀ l ∈ logger, Quiet l) →
        (∀ turn ∈ turns, ∃ e, turn.request = .step e ∧ e.index < t.eventLimit) →
        (∀ response ∈ responses, ∃ outcome, response.outcome = .ok (some outcome)) ∧
        ((holdings.machines machine).isReserved = false →
          Remains (fun s => s.isReserved = false) machine holdings responses) ∧
        ((holdings.machines machine).isReserved = true →
          Remains (fun s => s.isReserved = true) machine holdings responses ∧
            ∀ response ∈ responses, response.outcome = .ok (some .ignored))) := by
  refine ⟨session_has h f logger hindirect (depth + 1) hstart hturns,
    fun s e c hs he => step_reserved h f logger hs he, ?_⟩
  intro hplain hquiet hsteps
  have hturns' : ∀ turn ∈ turns, turn.machine = machine ∧
      ∃ e, turn.request = .step e ∧ e.index < t.eventLimit :=
    fun turn hturn => ⟨hturns turn hturn, hsteps turn hturn⟩
  cases hreserved : (holdings.machines machine).isReserved with
  | false =>
    obtain ⟨hremains, hresponses⟩ := session_declared h hplain hquiet hstart hturns' hreserved
    exact ⟨hresponses, fun _ => hremains, nofun⟩
  | true =>
    obtain ⟨hremains, hignored⟩ := session_reserved h hplain hquiet hstart hturns' hreserved
    exact ⟨fun response hresponse => ⟨_, hignored response hresponse⟩, nofun,
      fun _ => ⟨hremains, hignored⟩⟩

/-- The turnstile stays within its table when a call fails, and when an override moves it. The gate, which
has no handlers, takes no step to state 0. -/
theorem turnstile_confined :
    (∃ t : Table Unit Unit,
      (build ⟨"turnstile", { repeats := .lastWins }, none⟩ turnstile).1 = .ok t ∧
        Remains t.Has 0 ⟨fun _ => ⟨1⟩, fun _ => ()⟩
          (((t.equip (fun _ => Table.jumpTo ⟨2⟩) (none : Option (Logger Unit Unit))).calls 2).transcript
            ⟨fun _ => ⟨1⟩, fun _ => ()⟩ [⟨0, 0, .step ⟨1⟩⟩, ⟨0, 0, .enter ⟨9⟩ ⟨1⟩⟩])) ∧
    ∃ t : Table Unit Unit, (build ⟨"gate", ⟨.narrow, .lastWins⟩, none⟩ gate).1 = .ok t ∧
      Remains (fun s => s.isReserved = false) 0 ⟨fun _ => ⟨1⟩, fun _ => ()⟩
        (((t.equip (fun _ => Table.jumpTo ⟨0⟩) (none : Option (Logger Unit Unit))).calls 1).transcript
          ⟨fun _ => ⟨1⟩, fun _ => ()⟩ [⟨0, 0, .step ⟨1⟩⟩, ⟨0, 0, .step ⟨0⟩⟩]) := by
  constructor
  · obtain ⟨t, hbuilt, k, -, -⟩ := turnstile_built (none : Option Unit)
    have hstart : Number.index (⟨1⟩ : StateId) < t.stateLimit := by
      rw [k.stateLimit]
      decide
    obtain ⟨hremains, -⟩ := states_confined hbuilt (fun _ => Table.jumpTo ⟨2⟩)
      (none : Option (Logger Unit Unit)) (Description.indirect_map fun _ _ _ => not_assigns_jumpTo)
      1 ⟨fun _ => ⟨1⟩, fun _ => ()⟩ 0 hstart [⟨0, 0, .step ⟨1⟩⟩, ⟨0, 0, .enter ⟨9⟩ ⟨1⟩⟩] (by simp)
    exact ⟨t, hbuilt, hremains⟩
  · have hcheck : gate.check ⟨.narrow, .lastWins⟩ = .ok ⟨3, 3, 8⟩ := by decide
    obtain ⟨t, hbuild, k, -⟩ := build_ok (κ := Unit)
      (b := (⟨"gate", ⟨.narrow, .lastWins⟩, none⟩ : Blueprint Unit)) hcheck
    have hbuilt := congrArg Prod.fst hbuild
    have hstart : Number.index (⟨1⟩ : StateId) < t.stateLimit := by
      rw [k.stateLimit]
      decide
    have hevents : t.eventLimit = 3 := k.eventLimit
    obtain ⟨-, -, hplain⟩ := states_confined hbuilt (fun _ => Table.jumpTo ⟨0⟩)
      (none : Option (Logger Unit Unit)) (Description.indirect_map fun _ _ _ => not_assigns_jumpTo)
      0 ⟨fun _ => ⟨1⟩, fun _ => ()⟩ 0 hstart [⟨0, 0, .step ⟨1⟩⟩, ⟨0, 0, .step ⟨0⟩⟩] (by simp)
    obtain ⟨-, hremains, -⟩ := hplain (by decide) nofun (by simp [hevents, Number.index])
    exact ⟨t, hbuilt, hremains rfl⟩

end Blueprint
end StateMachine

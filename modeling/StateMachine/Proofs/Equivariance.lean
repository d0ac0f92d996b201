import StateMachine.Proofs.Renumbering

namespace StateMachine
variable {η κ σ ρ α β : Type} {limit : Space → Nat}

def Transition.renumber (p : Renumbering limit) (x : Transition) : Transition :=
  ⟨p.on x.source, p.on x.event, p.on x.target, x.overridden, x.position⟩

def Outcome.renumber (p : Renumbering limit) : Outcome → Outcome
  | entered target => entered (p.on target)
  | outcome => outcome

def Occurrence.renumber (p : Renumbering limit) : Occurrence σ ρ → Occurrence σ ρ
  | logged s message => logged (p.on s) message
  | assigned s => assigned (p.on s)
  | began role s e c => began role (p.on s) (p.on e) c
  | o => o

def Request.renumber (p : Renumbering limit) : Request → Request
  | step e => step (p.on e)
  | enter target e => enter (p.on target) (p.on e)

def Turn.renumber (p : Renumbering limit) (turn : Turn) : Turn :=
  { turn with request := turn.request.renumber p }

def Holdings.renumber (p : Renumbering limit) (holdings : Holdings σ) : Holdings σ :=
  { holdings with machines := fun i => p.on (holdings.machines i) }

def Response.renumber (p : Renumbering limit) (response : Response σ ρ) : Response σ ρ :=
  ⟨response.outcome.map (Option.map (Outcome.renumber p)), response.record.map (Occurrence.renumber p),
    response.holdings.renumber p⟩

/-- A run with other numbers. The answer is renumbered in its own way. -/
def Account.renumber (p : Renumbering limit) (g : α → β) (a : Account σ ρ α) : Account σ ρ β :=
  ⟨a.result.map g, p.on a.state, a.context, a.record.map (Occurrence.renumber p)⟩

theorem Holdings.put_renumber (p : Renumbering limit) (holdings : Holdings σ) (machine context : Nat)
    (s : StateId) (c : σ) :
    (holdings.put machine context s c).renumber p =
      (holdings.renumber p).put machine context (p.on s) c := by
  simp only [renumber, put, Holdings.mk.injEq, and_true]
  funext i
  exact apply_ite p.on _ _ _

theorem Description.transition?_renumber (p : Renumbering limit) (ds : Description η) (s : StateId)
    (e : EventId) :
    (ds.renumber p).transition? (p.on s, p.on e) =
      (ds.transition? (s, e)).map (Transition.renumber p) := by
  rw [transition?, rule?_renumber, Option.map_map, transition?, Option.map_map]
  rfl

namespace Table

/-- Two tables of one description, before and after its numbers are replaced. -/
structure Twins (p : Renumbering limit) (ds : Description η) (t t' : Table η κ) : Prop where
  represents : t.Represents ds
  renumbered : t'.Represents (ds.renumber p)
  name : t'.name = t.name
  extent : t'.extent = t.extent
  limit : t.extent.limit = limit

namespace Twins
variable {p : Renumbering limit} {ds : Description η} {t t' : Table η κ} {s : StateId} {e : EventId}

theorem stateLimit (k : Twins p ds t t') : t'.stateLimit = t.stateLimit := by
  rw [Table.stateLimit, k.extent, Table.stateLimit]

theorem eventLimit (k : Twins p ds t t') : t'.eventLimit = t.eventLimit := by
  rw [Table.eventLimit, k.extent, Table.eventLimit]

theorem stateLimit_eq (k : Twins p ds t t') : t.stateLimit = limit .state := congrFun k.limit .state

theorem eventLimit_eq (k : Twins p ds t t') : t.eventLimit = limit .event := congrFun k.limit .event

theorem checkState_eq (k : Twins p ds t t') (s : StateId) :
    t'.checkState (p.on s) = t.checkState s := by
  rw [checkState, checkState, k.name, k.stateLimit, k.stateLimit_eq]
  exact p.ite_on s (Except.ok ()) fun s => .error (Fault.stateRange t.name s (limit .state))

theorem checkEvent_eq (k : Twins p ds t t') (e : EventId) :
    t'.checkEvent (p.on e) = t.checkEvent e := by
  rw [checkEvent, checkEvent, k.name, k.eventLimit, k.eventLimit_eq]
  exact p.ite_on e (Except.ok ()) fun e => .error (Fault.eventRange t.name e (limit .event))

theorem slot_eq (k : Twins p ds t t') (s : StateId) : t'.slot (p.on s) = t.slot s := by
  rw [k.renumbered.slot_checked, k.represents.slot_checked, k.checkState_eq,
    Description.nameOf_renumber, Description.entryHandler?_renumber]

theorem eventName_eq (k : Twins p ds t t') (e : EventId) :
    t'.eventName (p.on e) = t.eventName e := by
  rw [k.renumbered.eventName_checked, k.represents.eventName_checked, k.checkEvent_eq,
    Description.nameOf_renumber]

theorem lookup_eq (k : Twins p ds t t') (s : StateId) (e : EventId) :
    t'.lookup (p.on s) (p.on e) = (t.lookup s e).map (Option.map (Transition.renumber p)) := by
  rw [k.renumbered.lookup_checked, k.represents.lookup_checked, k.checkState_eq, k.checkEvent_eq,
    Description.transition?_renumber, map_checked]

end Twins

section Runs
variable {p : Renumbering limit} {t t' : Table (Handler σ ρ) (Logger σ ρ)}
  {ds : Description (Handler σ ρ)} {calls calls' : Calls σ ρ} {s target : StateId} {e : EventId} {c : σ}

theorem Twins.breaches_eq (k : Twins p ds t t') (s : StateId) (request : Request) :
    t'.breaches (p.on s) (request.renumber p) = t.breaches s request := by
  have hstate (s : StateId) : t'.stateBreach (p.on s) = t.stateBreach s := by
    rw [stateBreach, stateBreach, k.name, k.stateLimit, k.stateLimit_eq]
    exact p.ite_on s [] fun s => [Fault.stateRange t.name s (limit .state)]
  have hevent (e : EventId) : t'.eventBreach (p.on e) = t.eventBreach e := by
    rw [eventBreach, eventBreach, k.name, k.eventLimit, k.eventLimit_eq]
    exact p.ite_on e [] fun e => [Fault.eventRange t.name e (limit .event)]
  cases request <;> simp only [Request.renumber, breaches, hstate, hevent]

theorem Twins.stateText_eq (k : Twins p ds t t') (hs : s.index < t.stateLimit) :
    t'.stateText (p.on s) = t.stateText s := by
  have hs' : (p.on s).index < t'.stateLimit := by
    rw [k.stateLimit_eq] at hs
    rw [k.stateLimit, k.stateLimit_eq]
    exact p.on_lt_iff.mpr hs
  rw [k.renumbered.stateText_eq hs', k.represents.stateText_eq hs, Description.nameOf_renumber]

theorem Twins.eventText_eq (k : Twins p ds t t') (he : e.index < t.eventLimit) :
    t'.eventText (p.on e) = t.eventText e := by
  have he' : (p.on e).index < t'.eventLimit := by
    rw [k.eventLimit_eq] at he
    rw [k.eventLimit, k.eventLimit_eq]
    exact p.on_lt_iff.mpr he
  rw [k.renumbered.eventText_eq he', k.represents.eventText_eq he, Description.nameOf_renumber]

/-- Where all numbers are in range, a move is told in the same words. -/
theorem Twins.announcement_eq (k : Twins p ds t t') (h : t.breaches s (.enter target e) = []) :
    t'.announcement (p.on s) (p.on target) (p.on e) = t.announcement s target e := by
  obtain ⟨hs, htarget, he⟩ := breaches_enter_eq_nil.mp h
  rw [announcement, announcement, k.stateText_eq hs, k.stateText_eq htarget, k.eventText_eq he]

theorem Twins.told_eq (k : Twins p ds t t') (hlogger : t'.logger = t.logger)
    (h : t.breaches s (.enter target e) = []) :
    t'.told (p.on s) (p.on target) (p.on e) c =
      (t.told s target e c).map (Occurrence.renumber p) := by
  rw [told, told, hlogger, k.announcement_eq h]
  cases t.logger with
  | none => rfl
  | some logger =>
    rw [List.map_cons, List.map_map]
    rfl

theorem Twins.moved_eq (k : Twins p ds t t') (hlogger : t'.logger = t.logger)
    (h : t.breaches s (.enter target e) = []) :
    t'.moved (p.on s) (p.on target) (p.on e) c =
      (t.moved s target e c).map (Occurrence.renumber p) := by
  obtain ⟨hs, htarget, he⟩ := breaches_enter_eq_nil.mp h
  rw [moved, moved, List.map_append, k.told_eq hlogger h, departure, departure, k.name,
    k.stateText_eq hs, k.stateText_eq htarget, k.eventText_eq he]
  rfl

theorem Twins.enterWith_eq (k : Twins p ds t t') (hlogger : t'.logger = t.logger)
    (hplain : ∀ d ∈ ds.active, d.handler? = none) :
    (t'.enterWith calls' (p.on target) (p.on e) (p.on s) c).account =
      (t.enterWith calls target e s c).account.renumber p id := by
  have hbreaches := k.breaches_eq s (.enter target e)
  rw [Request.renumber] at hbreaches
  cases hhead : (t.breaches s (.enter target e)).head? with
  | some fault =>
    rw [enterWith_breach hhead, enterWith_breach (hbreaches ▸ hhead)]
    rfl
  | none =>
    have hclear := List.head?_eq_none_iff.mp hhead
    rw [k.represents.enterWith_plain hplain hclear,
      k.renumbered.enterWith_plain (Description.plain_renumber p hplain) (hbreaches ▸ hclear),
      logFailure?, hlogger, k.announcement_eq hclear, k.told_eq hlogger hclear,
      k.moved_eq hlogger hclear, logFailure?]
    cases t.logger.bind fun logger => (logger c (t.announcement s target e)).failure with
    | some message => rfl
    | none => rfl

/-- A step ends where the old one ends, and says the same. -/
theorem Twins.stepWith_eq (k : Twins p ds t t') (hlogger : t'.logger = t.logger)
    (hplain : ∀ d ∈ ds.active, d.handler? = none) :
    (t'.stepWith calls' (p.on e) (p.on s) c).account =
      (t.stepWith calls e s c).account.renumber p (Outcome.renumber p) := by
  have hbreaches := k.breaches_eq s (.step e)
  rw [Request.renumber] at hbreaches
  cases hhead : (t.breaches s (.step e)).head? with
  | some fault =>
    rw [stepWith_breach hhead, stepWith_breach (hbreaches ▸ hhead)]
    rfl
  | none =>
    have hclear := List.head?_eq_none_iff.mp hhead
    obtain ⟨hs, he⟩ := breaches_step_eq_nil.mp hclear
    rw [k.represents.stepWith_plain hplain hclear,
      k.renumbered.stepWith_plain (Description.plain_renumber p hplain) (hbreaches ▸ hclear),
      Description.rule?_renumber, k.name, k.stateText_eq hs, k.eventText_eq he]
    cases ds.rule? s e with
    | none => rfl
    | some r =>
      dsimp only [Option.map_some, Rule.renumber]
      rw [k.enterWith_eq hlogger hplain]
      obtain ⟨_ | u, s', c', record⟩ := (t.enterWith calls r.target e s c).account
      · rfl
      · simp [Account.renumber, Except.map, Outcome.renumber]

theorem Twins.request_eq (k : Twins p ds t t') (hlogger : t'.logger = t.logger)
    (hplain : ∀ d ∈ ds.active, d.handler? = none) (depth : Nat) (request : Request) :
    ((t'.calls depth).request (request.renumber p) (p.on s) c).account =
      ((t.calls depth).request request s c).account.renumber p (Option.map (Outcome.renumber p)) := by
  cases request with
  | step e =>
    rw [Request.renumber, Calls.account_step, Calls.account_step]
    cases depth with
    | zero => rfl
    | succ depth =>
      rw [calls, calls, k.stepWith_eq hlogger hplain]
      obtain ⟨_ | outcome, s', c', record⟩ := (t.stepWith (t.calls depth) e s c).account <;> rfl
  | enter target e =>
    rw [Request.renumber, Calls.account_enter, Calls.account_enter]
    cases depth with
    | zero => rfl
    | succ depth =>
      rw [calls, calls, k.enterWith_eq hlogger hplain]
      obtain ⟨_ | u, s', c', record⟩ := (t.enterWith (t.calls depth) target e s c).account <;> rfl

theorem Twins.respond_eq (k : Twins p ds t t') (hlogger : t'.logger = t.logger)
    (hplain : ∀ d ∈ ds.active, d.handler? = none) (depth : Nat) (holdings : Holdings σ)
    (turn : Turn) :
    (t'.calls depth).respond (holdings.renumber p) (turn.renumber p) =
      ((t.calls depth).respond holdings turn).renumber p := by
  have hrequest := k.request_eq (s := holdings.machines turn.machine)
    (c := holdings.contexts turn.context) hlogger hplain depth turn.request
  rw [Calls.respond_eq, Calls.respond_eq, Response.renumber, Holdings.put_renumber]
  simp only [Holdings.renumber, Turn.renumber, hrequest]
  rfl

/-- Turn by turn a session goes the same way under other numbers. -/
theorem Twins.transcript_eq (k : Twins p ds t t') (hlogger : t'.logger = t.logger)
    (hplain : ∀ d ∈ ds.active, d.handler? = none) (depth : Nat) (holdings : Holdings σ)
    (turns : List Turn) :
    (t'.calls depth).transcript (holdings.renumber p) (turns.map (Turn.renumber p)) =
      ((t.calls depth).transcript holdings turns).map (Response.renumber p) := by
  induction turns generalizing holdings with
  | nil => rfl
  | cons turn rest ih =>
    rw [List.map_cons, Calls.transcript, k.respond_eq hlogger hplain, Calls.transcript, List.map_cons,
      ← ih]
    rfl

end Runs

/-- What a table says of its numbers, another says of the numbers that they are replaced by. -/
structure Renumbers (p : Renumbering limit) (t t' : Table η κ) : Prop where
  stateName : ∀ s, t'.stateName (p.on s) = t.stateName s
  eventName : ∀ e, t'.eventName (p.on e) = t.eventName e
  hasEntryHandler : ∀ s, t'.hasEntryHandler (p.on s) = t.hasEntryHandler s
  lookup : ∀ s e, t'.lookup (p.on s) (p.on e) =
    (t.lookup s e).map (Option.map (Transition.renumber p))

theorem Twins.renumbers {p : Renumbering limit} {ds : Description η} {t t' : Table η κ}
    (k : Twins p ds t t') : t.Renumbers p t' := by
  refine ⟨?_, k.eventName_eq, ?_, k.lookup_eq⟩
  · intro s
    rw [stateName, k.slot_eq, stateName]
  · intro s
    rw [hasEntryHandler, k.slot_eq, hasEntryHandler]

end Table

namespace Blueprint
variable {b : Blueprint κ} {ds : Description η} {t t' : Table η κ} {p : Renumbering limit}

theorem twins_of_build (h : (b.build ds).1 = .ok t) (h' : (b.build (ds.renumber p)).1 = .ok t')
    (hlimit : t.extent.limit = limit) : Table.Twins p ds t t' := by
  obtain ⟨hlawful, hrep, hname, -⟩ := represents_of_build h
  obtain ⟨-, hrep', hname', -⟩ := represents_of_build h'
  have hextent := (measures_of_build h).2.1
  have hspans : ds.Spans limit := hlimit ▸ hextent ▸ ds.spans_extent
  refine ⟨hrep, hrep', hname'.trans hname.symm, ?_, hlimit⟩
  rw [(measures_of_build h').2.1, hextent, hlawful.extent_renumber hspans]

/-- Handlers that run, and a logger, make twins of twins. -/
theorem twins_equip (h : (b.build ds).1 = .ok t) (h' : (b.build (ds.renumber p)).1 = .ok t')
    (hlimit : t.extent.limit = limit) (f : η → Handler σ ρ) (logger : Option (Logger σ ρ)) :
    Table.Twins p (ds.map (Line.map f)) (t.equip f logger) (t'.equip f logger) := by
  have k := twins_of_build h h' hlimit
  have hready := (ready_of_build h' f logger).toRepresents
  rw [Description.map_renumber] at hready
  exact ⟨(ready_of_build h f logger).toRepresents, hready, k.name, k.extent, k.limit⟩

/-- Dispatch is equivariant. If a description is accepted, then so is every renumbering of it, with the
same extent and the same notice. For the new numbers its table has the old names, entry handlers and
transitions, these at the old positions; and without handlers every session of calls goes as before,
with all numbers replaced and nothing else. -/
theorem dispatch_equivariant {x : Extent} (h : ds.check b.settings = .ok x)
    (p : Renumbering x.limit) :
    (ds.renumber p).check b.settings = .ok x ∧
      ∃ t t' : Table η κ, b.build ds = (.ok t, [.built b.name x]) ∧
        b.build (ds.renumber p) = (.ok t', [.built b.name x]) ∧ t.Renumbers p t' ∧
        ((∀ d ∈ ds.active, d.handler? = none) →
          ∀ {σ ρ : Type} (f : η → Handler σ ρ) (logger : Option (Logger σ ρ)) (depth : Nat)
            (holdings : Holdings σ) (turns : List Turn),
            ((t'.equip f logger).calls depth).transcript (holdings.renumber p)
                (turns.map (Turn.renumber p)) =
              (((t.equip f logger).calls depth).transcript holdings turns).map
                (Response.renumber p)) := by
  obtain ⟨hlawful, hx⟩ := Description.check_eq_ok_iff.mp h
  have hspans : ds.Spans x.limit := hx ▸ ds.spans_extent
  have hcheck : (ds.renumber p).check b.settings = .ok x :=
    Description.check_eq_ok_iff.mpr
      ⟨hlawful.renumber hspans, hx.trans (hlawful.extent_renumber hspans).symm⟩
  obtain ⟨t, hbuild, -, -, hextent, -⟩ := build_ok h
  obtain ⟨t', hbuild', -⟩ := build_ok hcheck
  have hbuilt := congrArg Prod.fst hbuild
  have hbuilt' := congrArg Prod.fst hbuild'
  have hlimit := congrArg Extent.limit hextent
  refine ⟨hcheck, t, t', hbuild, hbuild', (twins_of_build hbuilt hbuilt' hlimit).renumbers, ?_⟩
  intro hplain σ ρ f logger depth holdings turns
  have k := twins_equip hbuilt hbuilt' hlimit f logger
  exact k.transcript_eq rfl (Description.plain_map f hplain) depth holdings turns

/-- Numbers 1 and 2 change places. -/
def swapFirst (limit : Space → Nat) (h : ∀ space, 3 ≤ limit space) : Renumbering limit where
  perm _ := Equiv.swap ⟨1⟩ ⟨2⟩
  fixed := by
    intro space n hn
    have hlimit := h space
    have hindex : n.index ≠ 1 ∧ n.index ≠ 2 := by
      rw [Number.isReserved_iff] at hn
      omega
    refine Equiv.swap_apply_of_ne_of_ne ?_ ?_
    · rintro rfl
      exact hindex.1 rfl
    · rintro rfl
      exact hindex.2 rfl

/-- The gate with other numbers opens on event 2, from state 2 into state 1. -/
theorem gate_equivariant : ∃ (p : Renumbering (Extent.limit ⟨3, 3, 8⟩)) (t t' : Table Unit Unit),
    (build ⟨"gate", ⟨.narrow, .lastWins⟩, none⟩ gate).1 = .ok t ∧
      (build ⟨"gate", ⟨.narrow, .lastWins⟩, none⟩ (gate.renumber p)).1 = .ok t' ∧
      t'.lookup ⟨2⟩ ⟨2⟩ = .ok (some ⟨⟨2⟩, ⟨2⟩, ⟨1⟩, false, 7⟩) ∧
      ((t'.equip (fun _ => Table.jumpTo ⟨0⟩) (none : Option (Logger Unit Unit))).calls 1).transcript
          ⟨fun _ => ⟨2⟩, fun _ => ()⟩ [⟨0, 0, .step ⟨2⟩⟩] =
        (((t.equip (fun _ => Table.jumpTo ⟨0⟩) none).calls 1).transcript ⟨fun _ => ⟨1⟩, fun _ => ()⟩
          [⟨0, 0, .step ⟨1⟩⟩]).map (Response.renumber p) := by
  let b : Blueprint Unit := ⟨"gate", ⟨.narrow, .lastWins⟩, none⟩
  have hcheck : gate.check b.settings = .ok ⟨3, 3, 8⟩ := by decide
  let p : Renumbering (Extent.limit ⟨3, 3, 8⟩) := swapFirst _ fun space => by cases space <;> decide
  obtain ⟨-, t, t', hbuild, hbuild', hrenumbers, hruns⟩ := dispatch_equivariant hcheck p
  have hbuilt := congrArg Prod.fst hbuild
  obtain ⟨-, k, -, -⟩ := represents_of_build hbuilt
  have hfound : t.lookup ⟨1⟩ ⟨1⟩ = .ok (some ⟨⟨1⟩, ⟨1⟩, ⟨2⟩, false, 7⟩) :=
    k.lookup_eq (by rw [k.stateLimit]; decide) (by rw [k.eventLimit]; decide)
  have hlookup := hrenumbers.lookup ⟨1⟩ ⟨1⟩
  rw [hfound] at hlookup
  exact ⟨p, t, t', hbuilt, congrArg Prod.fst hbuild', hlookup,
    hruns (by decide) _ none 1 ⟨fun _ => ⟨1⟩, fun _ => ()⟩ [⟨0, 0, .step ⟨1⟩⟩]⟩

end Blueprint
end StateMachine

import StateMachine.Proofs.Listing
import StateMachine.Proofs.Runs

namespace StateMachine
variable {η θ κ σ ρ : Type}

/-- What a transition does, wherever it stands. -/
def Rule.action (r : Rule η) : StateId × Option η := (r.target, r.handler)

namespace Description
variable {ds ds' : Description η}

/-- Two descriptions of one meaning: for every number and every pair they say the same. Where their
transitions stand is left open. -/
structure Alike (ds ds' : Description η) : Prop where
  topState : ds.topState = ds'.topState
  topEvent : ds.topEvent = ds'.topEvent
  nameOf : ∀ {space : Space} (n : Number space), ds.nameOf n = ds'.nameOf n
  entryHandler? : ∀ s, ds.entryHandler? s = ds'.entryHandler? s
  action : ∀ s e, (ds.rule? s e).map Rule.action = (ds'.rule? s e).map Rule.action

theorem Alike.refl (ds : Description η) : ds.Alike ds :=
  ⟨rfl, rfl, fun _ => rfl, fun _ => rfl, fun _ _ => rfl⟩

theorem action_map (f : η → θ) (ds : Description η) (s : StateId) (e : EventId) :
    (rule? (ds.map (Line.map f)) s e).map Rule.action =
      ((ds.rule? s e).map Rule.action).map (Prod.map id (Option.map f)) := by
  rw [rule?_map, Option.map_map, Option.map_map]
  rfl

theorem Alike.map (k : ds.Alike ds') (f : η → θ) :
    Alike (ds.map (Line.map f)) (ds'.map (Line.map f)) := by
  refine ⟨?_, ?_, ?_, ?_, ?_⟩
  · rw [topState_map, topState_map, k.topState]
  · rw [topEvent_map, topEvent_map, k.topEvent]
  · intro space n
    rw [nameOf_map, nameOf_map, k.nameOf]
  · intro s
    rw [entryHandler?_map, entryHandler?_map, k.entryHandler?]
  · intro s e
    rw [action_map, action_map, k.action]

theorem blind_map {σ ρ : Type} {hide : View → View} {f : η → Handler σ ρ}
    (h : ∀ x, Handler.Blind hide (f x)) (ds : Description η) :
    ∀ d ∈ active (ds.map (Line.map f)), ∀ handler, d.handler? = some handler →
      Handler.Blind hide handler := by
  intro d hd handler hhandler
  obtain ⟨-, -, x, -, rfl⟩ := exists_of_handler?_map f ds hd hhandler
  exact h x

/-- The handler of a transition that counts stands in a line. -/
theorem line_of_rule? {s : StateId} {e : EventId} {r : Rule η} {handler : η}
    (h : ds.rule? s e = some r) (hhandler : r.handler = some handler) :
    ∃ d ∈ ds.active, d.handler? = some handler := by
  have hline := mem_rules_iff.mp (declares_of_rule? h).1
  exact ⟨_, List.mem_of_getElem? hline, hhandler⟩

end Description

namespace Reading
variable {r r' : Reading σ ρ} {calls : Calls σ ρ}

/-- Two readings that do the same. What a handler is shown may differ only where it does not look. -/
structure Alike (r r' : Reading σ ρ) : Prop where
  name : r.name = r'.name
  logger : r.logger = r'.logger
  lines : r.lines.Alike r'.lines
  unseen : ∀ d ∈ r.lines.active, ∀ handler, d.handler? = some handler →
    handler r.view = handler r'.view

theorem stateLimit_congr (k : r.lines.Alike r'.lines) : r.stateLimit = r'.stateLimit :=
  congrArg (· + 1) k.topState

theorem eventLimit_congr (k : r.lines.Alike r'.lines) : r.eventLimit = r'.eventLimit :=
  congrArg (· + 1) k.topEvent

theorem checkState_congr (hname : r.name = r'.name) (k : r.lines.Alike r'.lines) (s : StateId) :
    r.checkState s = r'.checkState s := by
  rw [checkState, checkState, hname, stateLimit_congr k]

theorem checkEvent_congr (hname : r.name = r'.name) (k : r.lines.Alike r'.lines) (e : EventId) :
    r.checkEvent e = r'.checkEvent e := by
  rw [checkEvent, checkEvent, hname, eventLimit_congr k]

theorem view_congr (hname : r.name = r'.name) (k : r.lines.Alike r'.lines) :
    { r.view with
      width := r'.width
      hasLogger := r'.logger.isSome
      lines := r'.lines.bare
      lookup := r'.lookup } = r'.view := by
  have hstates : r.view.stateName? = r'.view.stateName? := by
    funext s
    simp only [view, stateLimit_congr k, k.nameOf]
  have hevents : r.view.eventName? = r'.view.eventName? := by
    funext e
    simp only [view, eventLimit_congr k, k.nameOf]
  have hentries : r.view.hasEntryHandler = r'.view.hasEntryHandler := by
    funext s
    simp only [view, checkState_congr hname k, k.entryHandler?]
  dsimp only
  rw [hstates, hevents, hentries]
  simp only [view, hname, stateLimit_congr k, eventLimit_congr k]

/-- Where the transitions stand in the same places, so that a look-up shows no difference, the width,
the logger and the lines themselves may show one. -/
theorem view_eq (hname : r.name = r'.name) (k : r.lines.Alike r'.lines)
    (hrule : ∀ s e, r.lines.rule? s e = r'.lines.rule? s e) :
    { r.view with
      width := r'.width
      hasLogger := r'.logger.isSome
      lines := r'.lines.bare } = r'.view := by
  have hlookup : r.lookup = r'.lookup := by
    funext s e
    rw [lookup, lookup, checkState_congr hname k, checkEvent_congr hname k, hrule]
  rw [← view_congr hname k, ← hlookup]
  rfl

theorem Alike.invoke_eq (k : r.Alike r') {d : Line (Handler σ ρ)} (hd : d ∈ r.lines.active)
    {handler : Handler σ ρ} (hhandler : d.handler? = some handler) (role : Role) (e : EventId) :
    Exec.invoke r.view calls role handler e = Exec.invoke r'.view calls role handler e :=
  Exec.invoke_congr (k.unseen d hd handler hhandler) role e

theorem Alike.enterWith_eq (k : r.Alike r') (target : StateId) (e : EventId) :
    r.enterWith calls target e = r'.enterWith calls target e := by
  have hentry := k.lines.entryHandler? target
  simp only [enterWith, checkState_congr k.name k.lines, checkEvent_congr k.name k.lines,
    k.lines.nameOf, k.logger, k.name, ← hentry]
  cases h : r.lines.entryHandler? target with
  | none => rfl
  | some handler =>
    have hd := Description.onEntry_of_entryHandler? h
    simp only [k.invoke_eq hd rfl]

theorem Alike.stepWith_eq (k : r.Alike r') (e : EventId) :
    r.stepWith calls e = r'.stepWith calls e := by
  rw [stepWith, stepWith]
  apply congrArg (Exec.state >>= ·)
  funext current
  have haction := k.lines.action current e
  simp only [checkState_congr k.name k.lines, checkEvent_congr k.name k.lines, k.lines.nameOf,
    k.name]
  cases hr : r.lines.rule? current e with
  | none =>
    obtain hr' : r'.lines.rule? current e = none := by simpa [hr] using haction.symm
    rw [hr']
  | some rule =>
    rw [hr] at haction
    obtain ⟨rule', hr', hsame⟩ := Option.map_eq_some_iff.mp haction.symm
    obtain ⟨position, event, target, override⟩ := rule
    obtain ⟨position', event', target', override'⟩ := rule'
    obtain ⟨rfl, rfl⟩ := Prod.mk.inj hsame
    rw [hr']
    cases override' with
    | none => simp only [k.enterWith_eq]
    | some handler =>
      obtain ⟨d, hd, hhandler⟩ := Description.line_of_rule? hr rfl
      simp only [k.invoke_eq hd hhandler]

theorem Alike.calls_eq (k : r.Alike r') (depth : Nat) : r.calls depth = r'.calls depth := by
  induction depth with
  | zero => rfl
  | succ depth ih =>
    rw [calls, calls, ih]
    congr 1
    · funext target e
      exact k.enterWith_eq target e
    · funext e
      exact k.stepWith_eq e

end Reading

namespace Blueprint
variable {b b' : Blueprint κ} {ds ds' : Description η} {t t' : Table η κ}

theorem follows_equip (h : (b.build ds).1 = .ok t) (f : η → Handler σ ρ)
    (logger : Option (Logger σ ρ)) :
    (t.equip f logger).Follows (b.equip ds f logger) := by
  obtain ⟨-, -, hname, -⟩ := represents_of_build h
  exact ⟨(ready_of_build h f logger).toRepresents, hname, (measures_of_build h).2.2, rfl⟩

/-- One step of a built table leaves the context that the step of its reading leaves. -/
theorem contexts_step (h : (b.build ds).1 = .ok t) (f : η → Handler σ ρ)
    (logger : Option (Logger σ ρ)) (depth : Nat) (holdings : Holdings σ) (machine context : Nat)
    (e : EventId) :
    ((t.equip f logger).responses depth holdings [.perform machine context (.call (.step e))]).map
        (·.holdings.contexts context) =
      [((b.equip ds f logger).stepWith ((b.equip ds f logger).calls depth) e
        (holdings.machines machine) (holdings.contexts context)).context] := by
  have hcalls := (follows_equip h f logger).calls_eq (depth + 1)
  simp only [Table.responses, Table.respond, Table.perform, hcalls, Holdings.put, List.map_cons,
    List.map_nil, if_true]
  have haccount := ((b.equip ds f logger).calls (depth + 1)).account_step e
    (holdings.machines machine) (holdings.contexts context)
  exact congrArg (fun account => [account.context]) haccount

/-- Tables of two readings that do the same make the same calls. -/
theorem calls_congr (h : (b.build ds).1 = .ok t) (h' : (b'.build ds').1 = .ok t')
    {f : η → Handler σ ρ} {logger : Option (Logger σ ρ)}
    (k : (b.equip ds f logger).Alike (b'.equip ds' f logger)) (depth : Nat) :
    (t.equip f logger).calls depth = (t'.equip f logger).calls depth := by
  rw [(follows_equip h f logger).calls_eq, (follows_equip h' f logger).calls_eq, k.calls_eq]

/-- From one blueprint, descriptions that say the same in the same places give views that differ in
their lines only, and not even in these where they are left out. -/
theorem view_equip (k : ds.Alike ds') (hrule : ∀ s e, ds.rule? s e = ds'.rule? s e)
    {g : Description Unit → Description Unit} (hlines : g ds.bare = g ds'.bare)
    (f : η → Handler σ ρ) (logger : Option (Logger σ ρ)) :
    { (b.equip ds f logger).view with lines := g (b.equip ds f logger).view.lines } =
      { (b.equip ds' f logger).view with lines := g (b.equip ds' f logger).view.lines } := by
  have hname : (b.equip ds f logger).name = (b.equip ds' f logger).name := rfl
  rw [← Reading.view_eq hname (k.map f) fun s e => by simp only [equip, Description.rule?_map, hrule]]
  simp only [equip, Reading.view, Description.bare_map, hlines]

end Blueprint

namespace Table
variable {t t' : Table η κ} {ds ds' : Description η}

/-- Two tables that have the same limits, the same names and entry handlers and the same transitions in
the same places. They have the same sessions, whatever loggers do, with handlers that do not ask for
what is left out of their views. -/
structure Agrees (hide : View → View) (t t' : Table η κ) : Prop where
  name : t.name = t'.name
  extent : t.extent = t'.extent
  states : t.states = t'.states
  events : t.events = t'.events
  lookup : ∀ s e, t.lookup s e = t'.lookup s e
  transitions : t.transitions = t'.transitions
  runs : ∀ {σ ρ : Type} (f : η → Handler σ ρ), (∀ x, Handler.Blind hide (f x)) →
    ∀ (logger : Option (Logger σ ρ)) (depth : Nat) (holdings : Holdings σ) (acts : List (Act σ ρ)),
      (∀ act ∈ acts, act.Blind hide) →
        (t.equip f logger).responses depth holdings acts =
          (t'.equip f logger).responses depth holdings acts

/-- Two tables on which the works of a session go the same way have the same session. Of the tables
only the loggers change on the way. -/
theorem responses_congr {f : η → Handler σ ρ} {acts : List (Act σ ρ)}
    (h : ∀ act ∈ acts, ∀ machine context work, act.work? = some (machine, context, work) →
      ∀ logger depth, (t.equip f logger).perform depth work = (t'.equip f logger).perform depth work)
    (logger : Option (Logger σ ρ)) (depth : Nat) (holdings : Holdings σ) :
    (t.equip f logger).responses depth holdings acts =
      (t'.equip f logger).responses depth holdings acts := by
  induction acts generalizing logger holdings with
  | nil => rfl
  | cons act rest ih =>
    obtain ⟨hact, hrest⟩ := List.forall_mem_cons.mp h
    cases act with
    | perform machine context work =>
      simp only [responses, respond, hact machine context work rfl, ih hrest]
    | setLogger logger' => exact ih hrest (some logger') holdings
    | clearLogger => exact ih hrest none holdings

theorem Represents.summary_eq (k : t.Represents ds) :
    t.summary = .ok ⟨t.name, t.stateLimit, t.eventLimit, t.width, t.stateNames, t.eventNames,
      (List.range' 1 (t.stateLimit - 1)).filterMap ds.entryState?,
      t.pairs.filterMap ds.transition?⟩ := by
  rw [summary, k.entryStates_eq, k.transitions_eq]
  rfl

/-- The slots of a table show names and entry handlers, and nothing else of a description. -/
theorem Represents.states_congr (k : t.Represents ds) (k' : t'.Represents ds')
    (htop : ds.topState = ds'.topState) (hname : ∀ s : StateId, ds.nameOf s = ds'.nameOf s)
    (hentry : ∀ s, ds.entryHandler? s = ds'.entryHandler? s) : t.states = t'.states := by
  apply Array.toList_inj.mp
  rw [k.states_toList, k'.states_toList, k.stateLimit, k'.stateLimit, htop]
  simp only [hname, hentry]

theorem Represents.events_congr (k : t.Represents ds) (k' : t'.Represents ds')
    (htop : ds.topEvent = ds'.topEvent) (hname : ∀ e : EventId, ds.nameOf e = ds'.nameOf e) :
    t.events = t'.events := by
  apply Array.toList_inj.mp
  rw [k.events_toList, k'.events_toList, k.eventLimit, k'.eventLimit, htop]
  simp only [hname]

end Table

namespace Blueprint
variable {b b' : Blueprint κ} {ds ds' : Description η} {t t' : Table η κ}

/-- What is lawful is built. -/
theorem build_of_lawful (h : ds.Lawful b.settings) :
    ∃ t, b.build ds = (.ok t, [.built b.name ds.extent]) := by
  obtain ⟨t, hbuild, -⟩ := build_ok (Description.check_eq_ok_iff.mpr ⟨h, rfl⟩)
  exact ⟨t, hbuild⟩

/-- Where no handler asks for what the views of two tables of one meaning differ in, the tables have the
same sessions. -/
theorem responses_of_alike (h : (b.build ds).1 = .ok t) (h' : (b'.build ds').1 = .ok t')
    (hname : b.name = b'.name) (k : ds.Alike ds') {f : η → Handler σ ρ} {hide : View → View}
    (hview : ∀ logger, hide (b.equip ds f logger).view = hide (b'.equip ds' f logger).view)
    (hlines : ∀ d ∈ Description.active (ds.map (Line.map f)), ∀ handler, d.handler? = some handler →
      Handler.Blind hide handler)
    {acts : List (Act σ ρ)} (hacts : ∀ act ∈ acts, act.Blind hide) (logger : Option (Logger σ ρ))
    (depth : Nat) (holdings : Holdings σ) :
    (t.equip f logger).responses depth holdings acts =
      (t'.equip f logger).responses depth holdings acts := by
  refine Table.responses_congr ?_ logger depth holdings
  intro act hact machine context work hwork logger depth
  have hunseen {handler : Handler σ ρ} (hblind : Handler.Blind hide handler) :
      handler (b.equip ds f logger).view = handler (b'.equip ds' f logger).view := by
    rw [← hblind, hview, hblind]
  have hcalls : (t.equip f logger).calls = (t'.equip f logger).calls :=
    funext (calls_congr h h' ⟨hname, rfl, k.map f, fun d hd handler hhandler =>
      hunseen (hlines d hd handler hhandler)⟩)
  have hblind := hacts act hact
  cases act with
  | perform machine' context' work' =>
    cases hwork
    cases work with
    | call request => simp only [Table.perform, hcalls]
    | handle role handler e =>
      rw [Table.perform, Table.perform, Table.invoke, Table.invoke, hcalls,
        (follows_equip h f logger).view_eq, (follows_equip h' f logger).view_eq,
        Exec.invoke_congr (hunseen (hblind handler rfl))]
  | setLogger => cases hwork
  | clearLogger => cases hwork

/-- Descriptions that say the same, and in the same places, are built into tables that agree. Handlers
must not ask for what their views differ in, if they differ. -/
theorem agrees_of_build (h : (b.build ds).1 = .ok t) (h' : (b'.build ds').1 = .ok t')
    (hname : b.name = b'.name) (k : ds.Alike ds') (hrule : ∀ s e, ds.rule? s e = ds'.rule? s e)
    (hlength : ds.active.length = ds'.active.length) {hide : View → View}
    (hview : ∀ {σ ρ : Type} (f : η → Handler σ ρ) (logger : Option (Logger σ ρ)),
      hide (b.equip ds f logger).view = hide (b'.equip ds' f logger).view) : t.Agrees hide t' := by
  obtain ⟨-, hrep, htname, -⟩ := represents_of_build h
  obtain ⟨-, hrep', htname', -⟩ := represents_of_build h'
  have hname' : t.name = t'.name := by rw [htname, htname', hname]
  have hextent : t.extent = t'.extent := by
    rw [(measures_of_build h).2.1, (measures_of_build h').2.1, Description.extent_eq,
      Description.extent_eq, k.topState, k.topEvent, hlength]
  have hlookup : ∀ s e, t.lookup s e = t'.lookup s e := by
    intro s e
    rw [hrep.lookup_checked, hrep'.lookup_checked, Table.checkState, Table.checkState,
      Table.checkEvent, Table.checkEvent, Table.stateLimit, Table.stateLimit, Table.eventLimit,
      Table.eventLimit, hname', hextent, Description.transition?, Description.transition?, hrule]
  refine ⟨hname', hextent, hrep.states_congr hrep' k.topState k.nameOf k.entryHandler?,
    hrep.events_congr hrep' k.topEvent k.nameOf, hlookup, ?_, ?_⟩
  · rw [Table.transitions, Table.transitions, Table.pairs, Table.pairs, Table.stateLimit,
      Table.stateLimit, Table.eventLimit, Table.eventLimit, hextent]
    simp only [hlookup]
  · intro σ ρ f hblind logger depth holdings acts hacts
    exact responses_of_alike h h' hname k (hview f) (Description.blind_map hblind ds) hacts logger
      depth holdings

end Blueprint
end StateMachine

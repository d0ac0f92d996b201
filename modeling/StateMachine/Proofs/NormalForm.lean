import StateMachine.Proofs.Charts
import StateMachine.Proofs.Plain

namespace StateMachine

namespace Table
variable {η κ : Type} {t : Table η κ} {ds : Description η}

theorem Represents.stateNames_eq (k : t.Represents ds) :
    t.stateNames = (List.range t.stateLimit).map fun n => ds.nameOf (.ofNat n : StateId) := by
  rw [stateNames, k.states_toList, List.map_map]
  rfl

theorem Represents.eventNames_eq (k : t.Represents ds) :
    t.eventNames = (List.range t.eventLimit).map fun n => ds.nameOf (.ofNat n : EventId) :=
  k.events_toList

end Table

namespace Chart
variable {η κ : Type} {c : Chart} {t : Table η κ}

theorem Small.names_description (h : c.Small) (space : Space) :
    ((List.range ((c.names space).length + 1)).map fun n =>
      (c.description : Description η).nameOf (.ofNat n : Number space)) =
        reservedName :: c.names space := by
  have hlimit := h.names space
  apply List.ext_getElem?
  intro n
  rw [List.getElem?_map]
  by_cases hn : n < (c.names space).length + 1
  · rw [List.getElem?_range hn, Option.map_some, h.nameOf_description]
    cases n with
    | zero => rfl
    | succ n =>
      have hindex : (Number.ofNat (n + 1) : Number space).index = n + 1 :=
        Number.index_ofNat (by omega)
      rw [Number.isReserved_ofNat (by omega) (by omega), hindex, List.getElem?_cons_succ,
        Nat.add_sub_cancel, List.getElem?_eq_getElem (by omega)]
      rfl
  · rw [List.getElem?_eq_none (by rw [List.length_range]; omega),
      List.getElem?_eq_none (by rw [List.length_cons]; omega)]
    rfl

theorem Small.action_eq (h : c.Small) {s : StateId} {e : EventId} (hs : s ∈ c.stateIds)
    (he : e ∈ c.eventIds) : (c.description.rule? s e).map Rule.action =
      (c.target? s e).map fun target => (target, (none : Option η)) := by
  apply Option.ext
  rintro ⟨target, handler⟩
  rw [h.action_description, Option.map_eq_some_iff]
  simp [hs, he, eq_comm]

/-- Read as arrows, the listing of a table of a chart is the whole chart. -/
theorem Small.transitions_eq (h : c.Small) (k : t.Represents c.description) :
    ∃ listed, t.transitions = .ok listed ∧ listed.map Transition.arrow = c.arrows := by
  refine ⟨_, k.transitions_eq, ?_⟩
  have hpairs : t.pairs = c.stateIds.flatMap fun s => c.eventIds.map fun e => (s, e) := by
    rw [Table.pairs, k.stateLimit, k.eventLimit, h.topState_description, h.topEvent_description,
      stateIds, eventIds, List.flatMap_map]
    simp only [List.map_map, Nat.add_sub_cancel]
    rfl
  rw [hpairs, List.map_filterMap, List.filterMap_flatMap, arrows]
  apply List.flatMap_congr
  intro s hs
  rw [List.filterMap_map, row, List.map_filterMap]
  apply List.filterMap_congr
  intro e he
  have haction := congrArg (Option.map fun a : StateId × Option η => (s, e, a.1))
    (h.action_eq (η := η) hs he)
  rw [Option.map_map, Option.map_map] at haction
  rw [Function.comp_apply, Description.transition?, Option.map_map, Option.map_map]
  exact haction

end Chart

namespace Description
variable {η : Type} {ds : Description η} {settings : Settings}

/-- The largest number of a space. -/
def top (ds : Description η) : Space → Nat
  | .state => ds.topState
  | .event => ds.topEvent

theorem names_chart (ds : Description η) : ∀ space : Space, ds.chart.names space =
    (List.range' 1 (ds.top space)).map fun n => ds.nameOf (.ofNat n : Number space)
  | .state => rfl
  | .event => rfl

theorem small_chart (ds : Description η) : ds.chart.Small := by
  constructor
  · rw [chart, List.length_map, List.length_range']
    exact ds.topState_lt
  · rw [chart, List.length_map, List.length_range']
    exact ds.topEvent_lt

/-- A label raises the top of its space. -/
theorem index_le_top {space : Space} {d : Line η} {n : Number space} {name : String}
    (hd : d ∈ ds.active) (hn : d.label? space = some (n, name)) : n.index ≤ ds.top space := by
  cases space with
  | state =>
    cases d with
    | state s name' =>
      obtain ⟨rfl, -⟩ := Prod.mk.inj (Option.some.inj hn)
      exact index_le_topState hd rfl
    | _ => cases hn
  | event => exact index_le_topEvent hd hn

theorem nameOf_beyond {space : Space} {n : Number space} (h : ds.top space < n.index) :
    ds.nameOf n = "" := by
  have hreserved : n.isReserved = false := Number.isReserved_of_pos (by omega)
  have hlabel : ds.label? n = none := by
    apply List.findSome?_eq_none_iff.mpr
    rintro ⟨m, name⟩ hm
    obtain ⟨d, hd, hlabel⟩ := List.mem_filterMap.mp hm
    have hle := index_le_top (List.mem_reverse.mp hd) hlabel
    apply if_neg
    rintro rfl
    omega
  rw [nameOf, hreserved, hlabel]
  rfl

theorem nameOf_chart (ds : Description η) {space : Space} (n : Number space) :
    (ds.chart.description : Description η).nameOf n = ds.nameOf n := by
  rw [ds.small_chart.nameOf_description, names_chart]
  cases hn : n.isReserved with
  | true => rw [nameOf, hn]; rfl
  | false =>
    have hpos := Number.index_ne_zero hn
    by_cases hle : n.index ≤ ds.top space
    · have hindex : 1 + (n.index - 1) = n.index := by omega
      rw [List.getElem?_map, List.getElem?_range' (by omega), Nat.one_mul, hindex, Option.map_some,
        n.ofNat_index]
      rfl
    · rw [nameOf_beyond (by omega), List.getElem?_eq_none (by simp; omega)]
      rfl

/-- Without handlers, what a transition does is its target. -/
theorem action_of_plain (h : ∀ d ∈ ds.active, d.handler? = none) (s : StateId) (e : EventId) :
    (ds.rule? s e).map Rule.action = (ds.chart.target? s e).map fun target => (target, none) := by
  rw [chart, Option.map_map]
  cases hr : ds.rule? s e with
  | none => rfl
  | some r =>
    cases hhandler : r.handler with
    | none => simp [Rule.action, hhandler]
    | some handler =>
      obtain ⟨d, hd, hsome⟩ := line_of_rule? hr hhandler
      rw [h d hd] at hsome
      cases hsome

/-- The pair of a transition is a pair of the chart. -/
theorem Lawful.mem_of_rule? (h : ds.Lawful settings) {s : StateId} {e : EventId} {r : Rule η}
    (hr : ds.rule? s e = some r) : s ∈ ds.chart.stateIds ∧ e ∈ ds.chart.eventIds := by
  have hdeclares := declares_of_rule? hr
  obtain ⟨hs, he⟩ := h.unreserved hdeclares
  obtain ⟨hs', he'⟩ := h.within hdeclares
  rw [ds.small_chart.mem_stateIds, ds.small_chart.mem_eventIds, chart, List.length_map,
    List.length_map, List.length_range', List.length_range']
  exact ⟨⟨hs, hs'⟩, he, he'⟩

theorem Lawful.sound_chart (h : ds.Lawful settings) : ds.chart.Sound := by
  have htop := ds.topState_lt
  have htop' := ds.topEvent_lt
  refine ⟨?_, ?_, ?_⟩
  · intro name hname
    obtain ⟨n, hn, rfl⟩ := List.mem_map.mp hname
    rw [List.mem_range'_1] at hn
    exact h.state_named (by rw [Number.index_ofNat (by omega)]; omega)
  · intro name hname
    obtain ⟨n, hn, rfl⟩ := List.mem_map.mp hname
    rw [List.mem_range'_1] at hn
    exact h.event_named (by rw [Number.index_ofNat (by omega)]; omega)
  · intro s _ e _ target htarget
    obtain ⟨r, hr, rfl⟩ := Option.map_eq_some_iff.mp htarget
    rw [ds.small_chart.mem_stateIds, chart, List.length_map, List.length_range']
    exact h.target r (declares_of_rule? hr).1

/-- A description without handlers means what its chart means. -/
theorem Lawful.alike_chart (h : ds.Lawful settings) (hplain : ∀ d ∈ ds.active, d.handler? = none) :
    ds.Alike ds.chart.description := by
  have hsmall := ds.small_chart
  have hplain' : ∀ d ∈ (ds.chart.description : Description η).active, d.handler? = none := by
    rw [ds.chart.description_unstopped.active_eq]
    exact fun d hd => Chart.handler?_description hd
  refine ⟨?_, ?_, fun n => (ds.nameOf_chart n).symm, ?_, ?_⟩
  · rw [hsmall.topState_description, chart, List.length_map, List.length_range']
  · rw [hsmall.topEvent_description, chart, List.length_map, List.length_range']
  · intro s
    rw [entryHandler?_eq_none hplain, entryHandler?_eq_none hplain']
  · intro s e
    rw [action_of_plain hplain]
    apply Option.ext
    rintro ⟨target, handler⟩
    rw [hsmall.action_description, Option.map_eq_some_iff]
    constructor
    · intro hshown
      obtain ⟨target', htarget, heq⟩ := hshown
      obtain ⟨rfl, rfl⟩ := Prod.mk.inj heq
      obtain ⟨r, hr, -⟩ := Option.map_eq_some_iff.mp htarget
      obtain ⟨hs, he⟩ := h.mem_of_rule? hr
      exact ⟨⟨hs, he, htarget⟩, rfl⟩
    · intro hdrawn
      obtain ⟨⟨-, -, htarget⟩, hhandler⟩ := hdrawn
      exact ⟨target, htarget, Prod.ext rfl hhandler.symm⟩

end Description

namespace Table
variable {η κ σ ρ : Type} {t t' : Table η κ} {ds ds' : Description η} {settings : Settings}

/-- What is found for a pair in the listing is its transition. -/
theorem Represents.find?_listed (k : t.Represents ds) (h : ds.Lawful settings) (s : StateId)
    (e : EventId) :
    (t.pairs.filterMap ds.transition?).find? (fun x => x.source == s && x.event == e) =
      ds.transition? (s, e) := by
  cases hfound : (t.pairs.filterMap ds.transition?).find? fun x => x.source == s && x.event == e with
  | none =>
    cases hx : ds.transition? (s, e) with
    | none => rfl
    | some x =>
      obtain ⟨rfl, rfl, r, hr, -⟩ := Description.transition?_eq_some hx
      have hlisted : x ∈ t.pairs.filterMap ds.transition? :=
        List.mem_filterMap.mpr ⟨_, k.mem_pairs_of_rule? h hr, hx⟩
      have hmissed := List.find?_eq_none.mp hfound x hlisted
      simp at hmissed
  | some x =>
    have hpair := List.find?_some hfound
    simp only [Bool.and_eq_true, beq_iff_eq] at hpair
    obtain ⟨rfl, rfl⟩ := hpair
    obtain ⟨p, -, hx⟩ := List.mem_filterMap.mp (List.mem_of_find?_eq_some hfound)
    obtain ⟨hs, he, -⟩ := Description.transition?_eq_some (s := p.1) (e := p.2) hx
    rw [hs, he, hx]

/-- A summary shows the whole chart of the description. -/
theorem Represents.ofSummary_eq (k : t.Represents ds) (h : ds.Lawful settings) {summary : Summary}
    (hsummary : t.summary = .ok summary) : Chart.ofSummary summary = ds.chart := by
  obtain rfl := Except.ok.inj (k.summary_eq.symm.trans hsummary)
  rw [Chart.ofSummary, Description.chart, Chart.mk.injEq]
  refine ⟨?_, ?_, ?_⟩
  · rw [k.stateNames_eq, k.stateLimit, List.range_eq_range', List.range'_succ, List.map_cons,
      List.tail_cons]
  · rw [k.eventNames_eq, k.eventLimit, List.range_eq_range', List.range'_succ, List.map_cons,
      List.tail_cons]
  · funext s e
    rw [k.find?_listed h, Description.transition?, Option.map_map]
    rfl

end Table

/-- Two checks before an answer. -/
theorem map_checked {ε α β : Type} (first second : Except ε Unit) (a : α) (f : α → β) :
    Except.map f (do first; second; return a) = (do first; second; return f a) := by
  cases first with
  | error fault => rfl
  | ok u =>
    cases second with
    | error fault => rfl
    | ok u => rfl

theorem Description.Alike.transition?_unplaced {η : Type} {ds ds' : Description η}
    (k : ds.Alike ds') (p : StateId × EventId) :
    (ds.transition? p).map Transition.unplaced = (ds'.transition? p).map Transition.unplaced := by
  have haction := congrArg (Option.map fun a : StateId × Option η =>
    (⟨p.1, p.2, a.1, a.2.isSome, 0⟩ : Transition)) (k.action p.1 p.2)
  rw [Option.map_map, Option.map_map] at haction
  rw [Description.transition?, Description.transition?, Option.map_map, Option.map_map]
  exact haction

/-- Without the lines and the positions, descriptions of one meaning give one view. -/
theorem Blueprint.unplaced_congr {η κ σ ρ : Type} {b : Blueprint κ} {ds ds' : Description η}
    (k : ds.Alike ds') (f : η → Handler σ ρ) (logger : Option (Logger σ ρ)) :
    (b.equip ds f logger).view.unplaced = (b.equip ds' f logger).view.unplaced := by
  let r := b.equip ds f logger
  let r' := b.equip ds' f logger
  have hname : r.name = r'.name := rfl
  have hlines : r.lines.Alike r'.lines := k.map f
  have hlookup : r.view.unplaced.lookup = r'.view.unplaced.lookup := by
    funext s e
    have hview : ∀ r : Reading σ ρ, r.view.lookup s e = (do
        r.checkState s
        r.checkEvent e
        return r.lines.transition? (s, e)) := fun _ => rfl
    simp only [View.unplaced, hview, map_checked, hlines.transition?_unplaced,
      Reading.checkState_congr hname hlines, Reading.checkEvent_congr hname hlines]
  rw [← Reading.view_congr hname hlines] at hlookup ⊢
  exact congrArg (fun lookup => { r.view with lines := [], lookup }) hlookup

theorem View.unplaced_unplaced (view : View) : view.unplaced.unplaced = view.unplaced := by
  have hlookup : view.unplaced.unplaced.lookup = view.unplaced.lookup := by
    funext s e
    simp only [unplaced]
    rcases view.lookup s e with fault | _ | x <;> rfl
  exact congrArg (fun lookup => { view with lines := [], lookup }) hlookup

theorem Act.unplaced_blind {σ ρ : Type} (act : Act σ ρ) : act.unplaced.Blind View.unplaced := by
  cases act with
  | perform machine context work =>
    cases work with
    | call request => nofun
    | handle role handler e =>
      intro handler' h
      obtain rfl := Option.some.inj h
      exact fun view => congrArg handler view.unplaced_unplaced
  | _ => trivial

namespace Table
variable {η κ : Type} {t t' : Table η κ} {ds ds' : Description η}

/-- Two tables that show the same but for their lines and the positions of their transitions. -/
structure Matches (t t' : Table η κ) : Prop where
  name : t.name = t'.name
  states : t.states = t'.states
  events : t.events = t'.events
  lookup : ∀ s e, (t.lookup s e).map (Option.map Transition.unplaced) =
    (t'.lookup s e).map (Option.map Transition.unplaced)
  runs : ∀ {σ ρ : Type} (f : η → Handler σ ρ) (logger : Option (Logger σ ρ)) (depth : Nat)
    (holdings : Holdings σ) (acts : List (Act σ ρ)),
    (t.equip f logger).responses depth holdings (acts.map Act.unplaced) =
      (t'.equip f logger).responses depth holdings (acts.map Act.unplaced)

theorem Represents.lookup_unplaced (k : t.Represents ds) (k' : t'.Represents ds')
    (hname : t.name = t'.name) (h : ds.Alike ds') (s : StateId) (e : EventId) :
    (t.lookup s e).map (Option.map Transition.unplaced) =
      (t'.lookup s e).map (Option.map Transition.unplaced) := by
  have hstates : t.stateLimit = t'.stateLimit := by rw [k.stateLimit, k'.stateLimit, h.topState]
  have hevents : t.eventLimit = t'.eventLimit := by rw [k.eventLimit, k'.eventLimit, h.topEvent]
  rw [k.lookup_checked, k'.lookup_checked, map_checked, map_checked, h.transition?_unplaced,
    checkState, checkState, checkEvent, checkEvent, hname, hstates, hevents]

end Table

namespace Blueprint
variable {η κ : Type}

theorem matches_of_build {b : Blueprint κ} {ds ds' : Description η} {t t' : Table η κ}
    (h : (b.build ds).1 = .ok t) (h' : (b.build ds').1 = .ok t') (k : ds.Alike ds')
    (hplain : ∀ d ∈ ds.active, d.handler? = none) : t.Matches t' := by
  obtain ⟨-, hrep, hname, -⟩ := represents_of_build h
  obtain ⟨-, hrep', hname', -⟩ := represents_of_build h'
  have hsame : t.name = t'.name := by rw [hname, hname']
  refine ⟨hsame, hrep.states_congr hrep' k.topState k.nameOf k.entryHandler?,
    hrep.events_congr hrep' k.topEvent k.nameOf, hrep.lookup_unplaced hrep' hsame k, ?_⟩
  intro σ ρ f logger depth holdings acts
  refine responses_of_alike h h' rfl k (unplaced_congr k f) ?_ ?_ logger depth holdings
  · intro d hd handler hhandler
    rw [Description.plain_map f hplain d hd] at hhandler
    cases hhandler
  · exact List.forall_mem_map.mpr fun act _ => act.unplaced_blind

/-- Charts and tables. Every sound chart whose cells fit is built, under either policy, into a table
that has its names and lists its arrows and nothing else; for all its lines lie at positions that
fit. And a table that was built without handlers matches the one that is built, from the same
blueprint, of the chart that its summary shows. -/
theorem charts_exact (b : Blueprint κ) :
    (∀ (c : Chart) (settings : Settings), c.Sound → c.cells ≤ settings.width.capacity →
      (c.description : Description η).length < c.cells ∧
        ∃ (t : Table η κ) (listed : List Transition),
          (b.withSettings settings).build c.description = (.ok t, [.built b.name t.extent]) ∧
            t.stateNames = reservedName :: c.states ∧ t.eventNames = reservedName :: c.events ∧
            t.transitions = .ok listed ∧ listed.map Transition.arrow = c.arrows) ∧
    ∀ (ds : Description η) (t : Table η κ), (b.build ds).1 = .ok t →
      (∀ d ∈ ds.active, d.handler? = none) →
        ∃ (summary : Summary) (t' : Table η κ), t.summary = .ok summary ∧
          b.build (Chart.ofSummary summary).description = (.ok t', [.built b.name t'.extent]) ∧
            t.Matches t' := by
  constructor
  · intro c settings hsound hfits
    have hsmall := Chart.small_of_fits hfits
    obtain ⟨t, hbuild⟩ := build_of_lawful (b := b.withSettings settings)
      (hsound.lawful (η := η) hfits)
    have hbuilt := congrArg Prod.fst hbuild
    obtain ⟨-, k, -, -⟩ := represents_of_build hbuilt
    obtain ⟨listed, hlisted, harrows⟩ := hsmall.transitions_eq k
    refine ⟨c.length_description, t, listed, ?_, ?_, ?_, hlisted, harrows⟩
    · rw [(measures_of_build hbuilt).2.1]
      exact hbuild
    · rw [k.stateNames_eq, k.stateLimit, hsmall.topState_description]
      exact hsmall.names_description .state
    · rw [k.eventNames_eq, k.eventLimit, hsmall.topEvent_description]
      exact hsmall.names_description .event
  · intro ds t h hplain
    obtain ⟨hlawful, k, -, -⟩ := represents_of_build h
    have hfits : ds.chart.cells ≤ b.settings.width.capacity := by
      simpa [Chart.cells, Description.chart] using hlawful.cells
    obtain ⟨t', hbuild⟩ := build_of_lawful (hlawful.sound_chart.lawful (η := η) hfits)
    have hbuilt := congrArg Prod.fst hbuild
    refine ⟨_, t', k.summary_eq, ?_, matches_of_build h hbuilt (hlawful.alike_chart hplain) hplain⟩
    rw [k.ofSummary_eq hlawful k.summary_eq, (measures_of_build hbuilt).2.1]
    exact hbuild

/-- States come before events, state 1 is selected twice, and its first transition on event 1 does not
count. The chart shows none of that. -/
def gate : Description Unit :=
  [.state ⟨1⟩ "shut", .event ⟨1⟩ "push", .next ⟨1⟩ ⟨1⟩ none, .state ⟨2⟩ "open", .event ⟨2⟩ "pull",
    .next ⟨2⟩ ⟨1⟩ none, .source ⟨1⟩, .next ⟨1⟩ ⟨2⟩ none]

theorem gate_chart : ∃ (t t' : Table Unit Unit) (summary : Summary) (listed : List Transition),
    (build ⟨"gate", ⟨.narrow, .lastWins⟩, none⟩ gate).1 = .ok t ∧ t.summary = .ok summary ∧
      (build ⟨"gate", ⟨.narrow, .lastWins⟩, none⟩ (Chart.ofSummary summary).description).1 = .ok t' ∧
      t'.transitions = .ok listed ∧
      listed.map Transition.arrow = [(⟨1⟩, ⟨1⟩, ⟨2⟩), (⟨2⟩, ⟨2⟩, ⟨1⟩)] := by
  let b : Blueprint Unit := ⟨"gate", ⟨.narrow, .lastWins⟩, none⟩
  have hcheck : gate.check b.settings = .ok ⟨3, 3, 8⟩ := by decide
  obtain ⟨hlawful, -⟩ := Description.check_eq_ok_iff.mp hcheck
  obtain ⟨t, hbuild, k, -⟩ := build_ok (κ := Unit) (b := b) hcheck
  have hbuilt := congrArg Prod.fst hbuild
  obtain ⟨hcharts, hsummaries⟩ := charts_exact (η := Unit) b
  obtain ⟨summary, t', hsummary, hbuild', -⟩ := hsummaries gate t hbuilt (by decide)
  have hchart := k.ofSummary_eq hlawful hsummary
  obtain ⟨-, t'', listed, hbuild'', -, -, hlisted, harrows⟩ :=
    hcharts gate.chart b.settings hlawful.sound_chart (by decide)
  rw [hchart] at hbuild'
  obtain rfl : t' = t'' := Except.ok.inj (congrArg Prod.fst (hbuild'.symm.trans hbuild''))
  refine ⟨t, t', summary, listed, hbuilt, hsummary, ?_, hlisted, ?_⟩
  · rw [hchart]
    exact congrArg Prod.fst hbuild'
  · rw [harrows]
    decide

end Blueprint
end StateMachine

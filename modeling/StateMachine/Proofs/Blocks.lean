import StateMachine.Proofs.NormalForm
import StateMachine.Script

namespace StateMachine
variable {η κ σ ρ : Type}

/-- The name that a line gives to a number. -/
def Line.nameFor {space : Space} (n : Number space) (d : Line η) : Option String :=
  (d.label? space).bind fun (m, name) => if m = n then some name else none

theorem Line.nameFor_eq_some {space : Space} {n : Number space} {d : Line η} {name : String}
    (h : d.nameFor n = some name) : d = .label n name := by
  obtain ⟨⟨m, name'⟩, hlabel, hname⟩ := Option.bind_eq_some_iff.mp h
  obtain ⟨rfl, hsame⟩ := Option.ite_none_right_eq_some.mp hname
  obtain rfl := Option.some.inj hsame
  cases space <;> cases d <;> cases hlabel <;> rfl

namespace Description
variable {ds ds' : Description η} {settings : Settings}

/-- The same lines in another order, with the same meaning for every number and the same transitions
for every pair. -/
structure Rearranged (ds ds' : Description η) : Prop where
  lines : ds.active.Perm ds'.active
  bindings : ds.bindings.Perm ds'.bindings
  label? : ∀ {space : Space} (n : Number space), ds.label? n = ds'.label? n
  entryHandler? : ∀ s, ds.entryHandler? s = ds'.entryHandler? s

/-- No event is labelled only after a transition on it. -/
def LabelsFirst (ds : Description η) : Prop :=
  ∀ r ∈ ds.rules, (∃ d ∈ ds.active, ∃ name, d.label? .event = some (r.event, name)) →
    ds.labelsBefore r.event r.position = true

namespace Rearranged

theorem symm (k : ds.Rearranged ds') : ds'.Rearranged ds :=
  ⟨k.lines.symm, k.bindings.symm, fun n => (k.label? n).symm, fun s => (k.entryHandler? s).symm⟩

theorem topState_le (k : ds.Rearranged ds') : ds.topState ≤ ds'.topState :=
  topState_le_iff.mpr fun _ hd _ hs => index_le_topState (k.lines.mem_iff.mp hd) hs

theorem topEvent_le (k : ds.Rearranged ds') : ds.topEvent ≤ ds'.topEvent :=
  topEvent_le_iff.mpr fun _ hd _ _ he => index_le_topEvent (k.lines.mem_iff.mp hd) he

theorem topState_eq (k : ds.Rearranged ds') : ds.topState = ds'.topState :=
  Nat.le_antisymm k.topState_le k.symm.topState_le

theorem topEvent_eq (k : ds.Rearranged ds') : ds.topEvent = ds'.topEvent :=
  Nat.le_antisymm k.topEvent_le k.symm.topEvent_le

theorem extent_eq (k : ds.Rearranged ds') : ds.extent = ds'.extent := by
  rw [Description.extent_eq, Description.extent_eq, k.topState_eq, k.topEvent_eq, k.lines.length_eq]

/-- Every transition of the one stands somewhere in the other. -/
theorem exists_rule (k : ds.Rearranged ds') {r : Rule η} (hr : r ∈ ds'.rules) :
    ∃ r₀ ∈ ds.rules, ds.contextAt r₀.position = ds'.contextAt r.position ∧ r₀.event = r.event ∧
      r₀.target = r.target := by
  have hbinding : ((ds'.contextAt r.position, r.event), r.action) ∈ ds.bindings :=
    k.bindings.mem_iff.mpr (List.mem_map_of_mem hr)
  obtain ⟨r₀, hr₀, heq⟩ := List.mem_map.mp hbinding
  obtain ⟨hkey, haction⟩ := Prod.mk.inj heq
  obtain ⟨hs, he⟩ := Prod.mk.inj hkey
  exact ⟨r₀, hr₀, hs, he, congrArg Prod.fst haction⟩

theorem alike (k : ds.Rearranged ds') (h : ds.Lawful settings)
    (hrepeats : settings.repeats = .reject) : ds.Alike ds' := by
  have hnodup := h.keys_nodup hrepeats
  have hnodup' : (ds'.bindings.map Prod.fst).Nodup := (k.bindings.map Prod.fst).nodup_iff.mp hnodup
  refine ⟨k.topState_eq, k.topEvent_eq, ?_, k.entryHandler?, ?_⟩
  · intro space n
    rw [nameOf, k.label?, nameOf]
  · intro s e
    apply Option.ext
    intro a
    rw [action_eq_some_iff hnodup, action_eq_some_iff hnodup', k.bindings.mem_iff]

/-- Where transitions are declared once and their events labelled first, the order of the lines breaks
no rule, if only their positions fit. -/
theorem lawful (k : ds.Rearranged ds') (h : ds.Lawful settings)
    (hrepeats : settings.repeats = .reject) (hfirst : ds'.LabelsFirst)
    (hfits : ds'.active.length ≤ settings.width.capacity) : ds'.Lawful settings := by
  have hstates := k.topState_eq
  have hevents := k.topEvent_eq
  refine ⟨?_, ?_, ?_, ?_, ?_, ?_, ?_, ?_, ?_, ?_⟩
  · exact fun d hd => h.selected d (k.lines.mem_iff.mpr hd)
  · exact fun d hd => h.labelled d (k.lines.mem_iff.mpr hd)
  · intro r hr
    obtain ⟨r₀, hr₀, -, he, -⟩ := k.exists_rule hr
    obtain ⟨hreserved, hbefore⟩ := h.event r₀ hr₀
    rw [he] at hreserved hbefore
    obtain ⟨d, hd, hlabel⟩ := labelsBefore_labelled hbefore
    exact ⟨hreserved, hfirst r hr ⟨d, k.lines.mem_iff.mp hd, hlabel⟩⟩
  · intro r hr
    obtain ⟨r₀, hr₀, hs, -, -⟩ := k.exists_rule hr
    rw [← hs]
    exact h.context r₀ hr₀
  · intro r hr
    obtain ⟨r₀, hr₀, -, -, htarget⟩ := k.exists_rule hr
    rw [← htarget, ← hstates]
    exact h.target r₀ hr₀
  · rw [← hstates, ← hevents]
    exact h.cells
  · intro r hr
    obtain ⟨hlt, -⟩ := List.getElem?_eq_some_iff.mp (mem_rules_iff.mp hr)
    omega
  · rw [← hstates]
    intro s hs hle
    rw [← k.label?]
    exact h.states s hs hle
  · rw [← hevents]
    intro e he hle
    rw [← k.label?]
    exact h.events e he hle
  · intro _
    have hnodup := (k.bindings.map Prod.fst).nodup_iff.mp (h.keys_nodup hrepeats)
    exact repeatViolations_eq_nil fun r hr => not_superseded_of_nodup hnodup hr

end Rearranged

/-- A block tells of states alone, and its first line selects one. -/
structure IsBlock (block : Description η) : Prop where
  selects : ∃ d rest, block = d :: rest ∧ d.selected?.isSome = true
  lines : ∀ d ∈ block, d.isStop = false ∧ d.label? .event = none

/-- No state has labels in both blocks, and none has entry handlers in both. -/
structure Independent (block block' : Description η) : Prop where
  labels : ∀ s name name', .state s name ∈ block → .state s name' ∉ block'
  handlers : ∀ s handler handler', .onEntry s handler ∈ block → .onEntry s handler' ∉ block'

/-- Labels of events, and after them independent blocks. -/
structure Divided (front : Description η) (blocks : List (Description η)) : Prop where
  events : ∀ d ∈ front, ∃ e name, d = .event e name
  each : ∀ block ∈ blocks, block.IsBlock
  independent : blocks.Pairwise Independent

theorem Independent.symm {block block' : Description η} (h : block.Independent block') :
    block'.Independent block :=
  ⟨fun s name name' hmem hmem' => h.labels s name' name hmem' hmem,
    fun s handler handler' hmem hmem' => h.handlers s handler' handler hmem' hmem⟩

theorem Divided.perm {front : Description η} {blocks blocks' : List (Description η)}
    (h : Divided front blocks) (hperm : blocks.Perm blocks') : Divided front blocks' :=
  ⟨h.events, fun block hblock => h.each block (hperm.mem_iff.mpr hblock),
    hperm.pairwise h.independent Independent.symm⟩

theorem Divided.unstopped {front : Description η} {blocks : List (Description η)}
    (h : Divided front blocks) : (front ++ blocks.flatten).Unstopped := by
  refine unstopped_append_iff.mpr ⟨?_, ?_⟩
  · intro d hd
    obtain ⟨e, name, rfl⟩ := h.events d hd
    rfl
  · intro d hd
    obtain ⟨block, hblock, hmem⟩ := List.mem_flatten.mp hd
    exact ((h.each block hblock).lines d hmem).1

/-- At the end of a block the context is its own, whatever stands before it. -/
theorem contextAt_append_block {block : Description η} (h : (ds ++ block).Unstopped)
    (hselects : ∃ d rest, block = d :: rest ∧ d.selected?.isSome = true) :
    (ds ++ block).contextAt (ds ++ block).length = block.contextAt block.length := by
  obtain ⟨-, hblock⟩ := unstopped_append_iff.mp h
  have hsome : (block.reverse.findSome? Line.selected?).isSome = true := by
    obtain ⟨d, rest, rfl, hd⟩ := hselects
    exact List.findSome?_isSome_iff.mpr ⟨d, by simp, hd⟩
  obtain ⟨s, hs⟩ := Option.isSome_iff_exists.mp hsome
  rw [contextAt, contextAt, h.active_eq, hblock.active_eq, List.take_length, List.take_length,
    List.reverse_append, List.findSome?_append, hs, Option.some_or]

/-- A block brings its own transitions, for its own states. -/
theorem bindings_append_block {d : Line η} {rest : Description η} (h : (ds ++ d :: rest).Unstopped)
    (hd : d.selected?.isSome = true) :
    (ds ++ d :: rest).bindings = ds.bindings ++ bindings (d :: rest) := by
  obtain ⟨-, hblock⟩ := unstopped_append_iff.mp h
  -- From the end: a new last line finds the context of the block, since its first line is there.
  induction rest using List.reverseRecOn with
  | nil =>
    have hrule : ∀ i, d.rule? i = none := by
      intro i
      cases d with
      | next => cases hd
      | _ => rfl
    have halone : bindings ([] ++ [d]) = _ := bindings_append hblock
    rw [List.nil_append, hrule] at halone
    rw [bindings_append h, hrule, halone]
    rfl
  | append_singleton rest c ih =>
    rw [← List.cons_append] at h hblock ⊢
    rw [← List.append_assoc] at h ⊢
    have hcontext := contextAt_append_block h.front ⟨d, rest, rfl, hd⟩
    rw [bindings_append h, bindings_append hblock, ih h.front hblock.front, hcontext, List.append_assoc]
    cases c <;> rfl

/-- Block after block brings its transitions. -/
theorem bindings_flatten {blocks : List (Description η)} (h : (ds ++ blocks.flatten).Unstopped)
    (hblocks : ∀ block ∈ blocks, block.IsBlock) :
    (ds ++ blocks.flatten).bindings = ds.bindings ++ blocks.flatMap bindings := by
  induction blocks generalizing ds with
  | nil => simp
  | cons block blocks ih =>
    obtain ⟨hblock, hrest⟩ := List.forall_mem_cons.mp hblocks
    obtain ⟨d, rest, rfl, hd⟩ := hblock.selects
    rw [List.flatten_cons, ← List.append_assoc] at h ⊢
    rw [ih h hrest, bindings_append_block (unstopped_append_iff.mp h).1 hd, List.flatMap_cons,
      List.append_assoc]

/-- Two blocks of which one at most has lines that show something. -/
def OneSilent {β : Type} (g : Line η → Option β) (block block' : Description η) : Prop :=
  block.reverse.findSome? g = none ∨ block'.reverse.findSome? g = none

theorem oneSilent_of_not_both {β : Type} {g : Line η → Option β} {block block' : Description η}
    (h : ∀ d ∈ block, ∀ d' ∈ block', ∀ x x', g d = some x → g d' ≠ some x') :
    OneSilent g block block' := by
  rw [OneSilent, or_iff_not_imp_left]
  intro hsome
  obtain ⟨x, hx⟩ := Option.ne_none_iff_exists'.mp hsome
  obtain ⟨d, hd, hshown⟩ := List.exists_of_findSome?_eq_some hx
  apply List.findSome?_eq_none_iff.mpr
  intro d' hd'
  apply Option.eq_none_iff_forall_ne_some.mpr
  exact fun x' => h d (List.mem_reverse.mp hd) d' (List.mem_reverse.mp hd') x x' hshown

/-- The order of blocks does not decide which line is the last that shows something, if only one block
has such lines. -/
theorem findSome?_flatten_perm {β : Type} {g : Line η → Option β}
    {blocks blocks' : List (Description η)} (hperm : blocks.Perm blocks')
    (hone : blocks.Pairwise (OneSilent g)) :
    blocks.flatten.reverse.findSome? g = blocks'.flatten.reverse.findSome? g := by
  induction hperm with
  | nil => rfl
  | cons block _ ih =>
    simp only [List.flatten_cons, List.reverse_append, List.findSome?_append,
      ih (List.pairwise_cons.mp hone).2]
  | swap block block' blocks =>
    have hnone := (List.pairwise_cons.mp hone).1 block (by simp)
    simp only [List.flatten_cons, List.reverse_append, List.findSome?_append, Option.or_assoc]
    rcases hnone with hnone | hnone <;> rw [hnone] <;> simp
  | trans hperm _ ih ih' => rw [ih hone, ih' (hperm.pairwise hone Or.symm)]

theorem label?_eq_findSome? {space : Space} (ds : Description η) (n : Number space) :
    ds.label? n = ds.active.reverse.findSome? (Line.nameFor n) := by
  rw [label?, ← List.head?_filterMap, List.filterMap_filterMap, List.head?_filterMap]
  rfl

namespace Divided
variable {front : Description η} {blocks blocks' : List (Description η)}

theorem findSome?_perm {β : Type} {g : Line η → Option β} (h : Divided front blocks)
    (hperm : blocks.Perm blocks') (hone : blocks.Pairwise (OneSilent g)) :
    (front ++ blocks.flatten).active.reverse.findSome? g =
      (front ++ blocks'.flatten).active.reverse.findSome? g := by
  rw [h.unstopped.active_eq, (h.perm hperm).unstopped.active_eq, List.reverse_append,
    List.reverse_append, List.findSome?_append, List.findSome?_append, findSome?_flatten_perm hperm hone]

theorem label?_perm (h : Divided front blocks) (hperm : blocks.Perm blocks') {space : Space}
    (n : Number space) :
    (front ++ blocks.flatten).label? n = (front ++ blocks'.flatten).label? n := by
  rw [label?_eq_findSome?, label?_eq_findSome?]
  apply h.findSome?_perm hperm
  cases space with
  | state =>
    refine h.independent.imp fun hindependent => oneSilent_of_not_both ?_
    intro d hd d' hd' name name' hname hname'
    rw [Line.nameFor_eq_some hname] at hd
    rw [Line.nameFor_eq_some hname'] at hd'
    exact hindependent.labels n name name' hd hd'
  | event =>
    refine List.pairwise_of_forall_mem_list fun block hblock block' _ => oneSilent_of_not_both ?_
    intro d hd d' _ name name' hname
    rw [Line.nameFor, ((h.each block hblock).lines d hd).2] at hname
    cases hname

theorem entryHandler?_perm (h : Divided front blocks) (hperm : blocks.Perm blocks') (s : StateId) :
    (front ++ blocks.flatten).entryHandler? s = (front ++ blocks'.flatten).entryHandler? s := by
  refine h.findSome?_perm hperm (h.independent.imp fun hindependent => oneSilent_of_not_both ?_)
  intro d hd d' hd' handler handler' hhandler hhandler'
  cases d with
  | onEntry s₁ handler₁ =>
    cases d' with
    | onEntry s₂ handler₂ =>
      obtain ⟨rfl, -⟩ := Option.ite_none_right_eq_some.mp hhandler
      obtain ⟨rfl, -⟩ := Option.ite_none_right_eq_some.mp hhandler'
      exact hindependent.handlers _ _ _ hd hd'
    | _ => cases hhandler'
  | _ => cases hhandler

/-- Transitions stand in blocks, and labels of events before them. -/
theorem labelsFirst (h : Divided front blocks) : (front ++ blocks.flatten).LabelsFirst := by
  intro r hr hlabelled
  have hline := mem_rules_iff.mp hr
  rw [h.unstopped.active_eq] at hline
  have hposition : front.length ≤ r.position := by
    by_contra hlt
    rw [List.getElem?_append_left (Nat.lt_of_not_le hlt)] at hline
    obtain ⟨e, name, heq⟩ := h.events _ (List.mem_of_getElem? hline)
    cases heq
  obtain ⟨d, hd, name, hlabel⟩ := hlabelled
  rw [h.unstopped.active_eq] at hd
  have hfront : d ∈ front := by
    refine (List.mem_append.mp hd).resolve_right fun hmem => ?_
    obtain ⟨block, hblock, hmem⟩ := List.mem_flatten.mp hmem
    rw [((h.each block hblock).lines d hmem).2] at hlabel
    cases hlabel
  rw [labelsBefore, h.unstopped.active_eq]
  refine List.any_eq_true.mpr ⟨d, ?_, by simp [hlabel]⟩
  rw [List.take_append, List.take_of_length_le hposition]
  exact List.mem_append_left _ hfront

theorem rearranged (h : Divided front blocks) (hperm : blocks.Perm blocks') :
    Rearranged (front ++ blocks.flatten) (front ++ blocks'.flatten) := by
  have h' := h.perm hperm
  refine ⟨?_, ?_, h.label?_perm hperm, h.entryHandler?_perm hperm⟩
  · rw [h.unstopped.active_eq, h'.unstopped.active_eq]
    exact hperm.flatten.append_left front
  · rw [bindings_flatten h.unstopped h.each, bindings_flatten h'.unstopped h'.each]
    exact (hperm.flatMap_right bindings).append_left front.bindings

/-- The blocks may stand in any order. -/
theorem check_perm (h : Divided front blocks) (hperm : blocks.Perm blocks')
    (hrepeats : settings.repeats = .reject)
    (hfits : (front ++ blocks.flatten).length ≤ settings.width.capacity) {x : Extent}
    (hcheck : (front ++ blocks.flatten).check settings = .ok x) :
    (front ++ blocks'.flatten).check settings = .ok x := by
  obtain ⟨hlawful, rfl⟩ := check_eq_ok_iff.mp hcheck
  have h' := h.perm hperm
  have k := h.rearranged hperm
  refine check_eq_ok_iff.mpr ⟨k.lawful hlawful hrepeats h'.labelsFirst ?_, k.extent_eq⟩
  rw [← k.lines.length_eq, h.unstopped.active_eq]
  exact hfits

end Divided
end Description

namespace Table

/-- Two tables that show the same but for their lines and the positions of their transitions. They
have the same sessions with all handlers that ask for neither. -/
structure Resembles (t t' : Table η κ) : Prop where
  name : t.name = t'.name
  extent : t.extent = t'.extent
  states : t.states = t'.states
  events : t.events = t'.events
  lookup : ∀ s e, (t.lookup s e).map (Option.map Transition.unplaced) =
    (t'.lookup s e).map (Option.map Transition.unplaced)
  transitions : t.transitions.map (List.map Transition.unplaced) =
    t'.transitions.map (List.map Transition.unplaced)
  runs : ∀ {σ ρ : Type} (f : η → Handler σ ρ), (∀ x, Handler.Blind View.unplaced (f x)) →
    ∀ (logger : Option (Logger σ ρ)) (depth : Nat) (holdings : Holdings σ) (acts : List (Act σ ρ)),
      (∀ act ∈ acts, act.Blind View.unplaced) →
        (t.equip f logger).responses depth holdings acts =
          (t'.equip f logger).responses depth holdings acts

theorem Represents.transitions_unplaced {t t' : Table η κ} {ds ds' : Description η}
    (k : t.Represents ds) (k' : t'.Represents ds') (h : ds.Alike ds') :
    t.transitions.map (List.map Transition.unplaced) =
      t'.transitions.map (List.map Transition.unplaced) := by
  have hpairs : t.pairs = t'.pairs := by
    rw [pairs, pairs, k.stateLimit, k'.stateLimit, k.eventLimit, k'.eventLimit, h.topState, h.topEvent]
  rw [k.transitions_eq, k'.transitions_eq, hpairs, Except.map, Except.map, List.map_filterMap,
    List.map_filterMap]
  simp only [h.transition?_unplaced]

end Table

namespace Blueprint
variable {b : Blueprint κ}

theorem resembles_of_build {ds ds' : Description η} {t t' : Table η κ}
    (h : (b.build ds).1 = .ok t) (h' : (b.build ds').1 = .ok t') (k : ds.Alike ds')
    (hextent : ds.extent = ds'.extent) : t.Resembles t' := by
  obtain ⟨-, hrep, hname, -⟩ := represents_of_build h
  obtain ⟨-, hrep', hname', -⟩ := represents_of_build h'
  have hsame : t.name = t'.name := by rw [hname, hname']
  refine ⟨hsame, ?_, hrep.states_congr hrep' k.topState k.nameOf k.entryHandler?,
    hrep.events_congr hrep' k.topEvent k.nameOf, hrep.lookup_unplaced hrep' hsame k,
    hrep.transitions_unplaced hrep' k, ?_⟩
  · rw [(measures_of_build h).2.1, (measures_of_build h').2.1, hextent]
  · intro σ ρ f hblind logger depth holdings acts hacts
    exact responses_of_alike h h' rfl k (unplaced_congr k f) (Description.blind_map hblind ds) hacts
      logger depth holdings

/-- The order of independent blocks does not matter. After the labels of the events they may stand in
any order: the description is accepted with the same extent or not at all, and the tables differ in
the places of their transitions only. -/
theorem blocks_commute {front : Description η} {blocks blocks' : List (Description η)}
    (h : Description.Divided front blocks) (hperm : blocks.Perm blocks')
    (hrepeats : b.settings.repeats = .reject)
    (hfits : (front ++ blocks.flatten).length ≤ b.settings.width.capacity) :
    (∀ x, (front ++ blocks.flatten).check b.settings = .ok x ↔
      (front ++ blocks'.flatten).check b.settings = .ok x) ∧
    ∀ t : Table η κ, (b.build (front ++ blocks.flatten)).1 = .ok t →
      ∃ t', b.build (front ++ blocks'.flatten) =
          (.ok t', (b.build (front ++ blocks.flatten)).2) ∧ t.Resembles t' := by
  have hfits' : (front ++ blocks'.flatten).length ≤ b.settings.width.capacity := by
    rwa [← (hperm.flatten.append_left front).length_eq]
  constructor
  · intro x
    exact ⟨h.check_perm hperm hrepeats hfits,
      (h.perm hperm).check_perm hperm.symm hrepeats hfits'⟩
  · intro t hbuilt
    obtain ⟨hlawful, -, -, -⟩ := represents_of_build hbuilt
    have k := h.rearranged hperm
    have hcheck' := h.check_perm hperm hrepeats hfits (Description.check_eq_ok_iff.mpr ⟨hlawful, rfl⟩)
    obtain ⟨t', hbuild', -⟩ := build_ok (κ := κ) hcheck'
    refine ⟨t', ?_, resembles_of_build hbuilt (congrArg Prod.fst hbuild')
      (k.alike hlawful hrepeats) k.extent_eq⟩
    rw [hbuild', (measures_of_build hbuilt).1]

end Blueprint

/-- Two views that answer the questions of scripts alike. -/
structure View.Answers (view view' : View) : Prop where
  name : view.name = view'.name
  stateName? : view.stateName? = view'.stateName?
  eventName? : view.eventName? = view'.eventName?
  target : ∀ s e, (view.lookup s e).map (Option.map Transition.target) =
    (view'.lookup s e).map (Option.map Transition.target)

mutual

/-- Of a transition that it looks up, an action takes the target alone. -/
theorem Action.routine_congr {view view' : View} (k : view.Answers view') (e : EventId) :
    ∀ action : Action, action.routine view e = action.routine view' e
  | .mark _ => by simp only [Action.routine, k.name, k.stateName?, k.eventName?]
  | .add _ _ => rfl
  | .set _ => rfl
  | .enter _ _ => rfl
  | .step _ => rfl
  | .follow => by
    simp only [Action.routine]
    congr 1
    funext s
    have htarget := k.target s e
    generalize view.lookup s e = found at htarget ⊢
    generalize view'.lookup s e = found' at htarget ⊢
    rcases found with fault | _ | x <;> rcases found' with fault' | _ | x' <;>
      simp_all [Except.map, Routine.lift, Routine.bind]
  | .fail _ => rfl
  | .ifRegister _ _ _ yes no => by
    simp only [Action.routine, Action.routines_congr k e yes, Action.routines_congr k e no]
  | .ifState _ yes no => by
    simp only [Action.routine, Action.routines_congr k e yes, Action.routines_congr k e no]

theorem Action.routines_congr {view view' : View} (k : view.Answers view') (e : EventId) :
    ∀ script : List Action, Action.routines view e script = Action.routines view' e script
  | [] => rfl
  | action :: rest => by
    simp only [Action.routines, Action.routine_congr k e action, Action.routines_congr k e rest]

end

/-- Scripts ask for names and for targets, and for nothing that may be left out of a view. -/
theorem Action.handler_blind (script : List Action) :
    ∀ hide ∈ [View.unlogged, View.unsized, View.untilStop, View.settled, View.unplaced],
      Handler.Blind hide (Action.handler script) := by
  intro hide hhide view
  have k : (hide view).Answers view := by
    simp only [List.mem_cons, List.not_mem_nil, or_false] at hhide
    rcases hhide with rfl | rfl | rfl | rfl | rfl
    · exact ⟨rfl, rfl, rfl, fun _ _ => rfl⟩
    · exact ⟨rfl, rfl, rfl, fun _ _ => rfl⟩
    · exact ⟨rfl, rfl, rfl, fun _ _ => rfl⟩
    · exact ⟨rfl, rfl, rfl, fun _ _ => rfl⟩
    · refine ⟨rfl, rfl, rfl, fun s e => ?_⟩
      simp only [View.unplaced]
      rcases view.lookup s e with fault | _ | x <;> rfl
  funext e
  simp only [Action.handler, Action.routines_congr k]

namespace Blueprint

/-- A door is shut, or it is open. The one block follows its own transition, the other counts. -/
def door : List (Description (List Action)) :=
  [[.state ⟨1⟩ "shut", .next ⟨1⟩ ⟨2⟩ (some [.follow])],
    [.onEntry ⟨2⟩ [.add 0 1], .state ⟨2⟩ "open", .next ⟨1⟩ ⟨1⟩ none]]

theorem door_divided : Description.Divided [.event ⟨1⟩ "push"] door := by
  refine ⟨?_, ?_, ?_⟩
  · simp
  · intro block hblock
    rcases List.mem_pair.mp hblock with rfl | rfl
    · exact ⟨⟨_, _, rfl, rfl⟩, by simp [Line.isStop, Line.label?]⟩
    · exact ⟨⟨_, _, rfl, rfl⟩, by simp [Line.isStop, Line.label?]⟩
  · refine List.pairwise_pair.mpr ⟨?_, by simp⟩
    intro s name name' hmem hmem'
    obtain ⟨rfl, -⟩ : s = ⟨1⟩ ∧ name = "shut" := by simpa using hmem
    simp at hmem'

/-- Built from its blocks in either order, the door opens the same way. -/
theorem door_commutes : ∃ t t' : Table (List Action) Unit,
    (build ⟨"door", ⟨.narrow, .reject⟩, none⟩ (.event ⟨1⟩ "push" :: door.flatten)).1 = .ok t ∧
      (build ⟨"door", ⟨.narrow, .reject⟩, none⟩ (.event ⟨1⟩ "push" :: door.reverse.flatten)).1 = .ok t' ∧
        (t.equip Action.handler none).responses 2 ⟨fun _ => ⟨1⟩, fun _ => {}⟩
            [.perform 0 0 (.call (.step ⟨1⟩))] =
          (t'.equip Action.handler none).responses 2 ⟨fun _ => ⟨1⟩, fun _ => {}⟩
            [.perform 0 0 (.call (.step ⟨1⟩))] := by
  let b : Blueprint Unit := ⟨"door", ⟨.narrow, .reject⟩, none⟩
  obtain ⟨-, hbuilds⟩ := blocks_commute (b := b) door_divided door.reverse_perm.symm rfl (by decide)
  have hcheck : Description.check (.event ⟨1⟩ "push" :: door.flatten) b.settings = .ok ⟨3, 2, 6⟩ := by
    decide
  obtain ⟨t, hbuild, -⟩ := build_ok (b := b) hcheck
  have hbuilt := congrArg Prod.fst hbuild
  obtain ⟨t', hbuild', hresembles⟩ := hbuilds t hbuilt
  exact ⟨t, t', hbuilt, congrArg Prod.fst hbuild', hresembles.runs Action.handler
    (fun script => Action.handler_blind script _ (by simp)) none 2 _ _ (by simp [Act.Blind, Work.Blind, Work.handler?])⟩

end Blueprint
end StateMachine

import StateMachine.Proofs.Policies
import StateMachine.Proofs.Registers

namespace StateMachine
variable {η κ : Type}

namespace Description
variable {ds : Description η} {d : Line η} {width : CellWidth} {repeats : RepeatPolicy}
  {s target : StateId} {e : EventId}

/-- A line that can stand after the lines of a lawful description. It labels nothing, it handles no
entry, and what it uses is there already. -/
structure Admits (ds : Description η) (d : Line η) (width : CellWidth) : Prop where
  unstopped : (ds ++ [d]).Unstopped
  silent : ∀ space, d.label? space = none
  entry : ∀ s handler, d ≠ .onEntry s handler
  selected : ∀ s, d.selected? = some s → s.isReserved = false ∧ s.index ≤ ds.topState
  rule : ∀ r, d.rule? ds.length = some r →
    (r.event.isReserved = false ∧ r.event.index ≤ ds.topEvent) ∧
      (r.target.isReserved = false ∧ r.target.index ≤ ds.topState) ∧
      (ds.contextAt ds.length).isSome = true ∧ ds.length < width.capacity

namespace Admits

theorem topState (k : ds.Admits d width) : (ds ++ [d]).topState = ds.topState := by
  rw [topState_append k.unstopped]
  cases hd : d.selected? with
  | none => rfl
  | some s => exact Nat.max_eq_left (k.selected s hd).2

theorem topEvent (k : ds.Admits d width) : (ds ++ [d]).topEvent = ds.topEvent := by
  rw [topEvent_append k.unstopped, k.silent]

theorem label? (k : ds.Admits d width) {space : Space} (n : Number space) :
    (ds ++ [d]).label? n = ds.label? n := by
  rw [label?_append k.unstopped, k.silent]

theorem nameOf (k : ds.Admits d width) {space : Space} (n : Number space) :
    (ds ++ [d]).nameOf n = ds.nameOf n := by
  rw [Description.nameOf, k.label?, Description.nameOf]

theorem entryHandler? (k : ds.Admits d width) (s : StateId) :
    (ds ++ [d]).entryHandler? s = ds.entryHandler? s := by
  rw [entryHandler?_append k.unstopped]
  cases d with
  | onEntry s handler => exact absurd rfl (k.entry s handler)
  | _ => rfl

/-- Lawfulness stays, but for repetitions. -/
theorem lawful (k : ds.Admits d width) (h : ds.Lawful ⟨width, repeats⟩) :
    (ds ++ [d]).Lawful ⟨width, .lastWins⟩ := by
  have hlines : ∀ c ∈ (ds ++ [d]).active, c ∈ ds.active ∨ c = d := by
    intro c hc
    rw [k.unstopped.active_eq, List.mem_append, List.mem_singleton] at hc
    rwa [k.unstopped.front.active_eq]
  have hrules : ∀ r ∈ (ds ++ [d]).rules, r ∈ ds.rules ∨ d.rule? ds.length = some r := by
    intro r hr
    rwa [rules_append k.unstopped, List.mem_append, Option.mem_toList] at hr
  refine ⟨?_, ?_, ?_, ?_, ?_, ?_, ?_, ?_, ?_, fun hreject => by cases hreject⟩
  · intro c hc s hs
    rcases hlines c hc with hc | rfl
    · exact h.selected c hc s hs
    · exact (k.selected s hs).1
  · intro c hc e name he
    rcases hlines c hc with hc | rfl
    · exact h.labelled c hc e name he
    · rw [k.silent] at he
      cases he
  · intro r hr
    rcases hrules r hr with hr | hr
    · rw [labelsBefore_append k.unstopped (Nat.le_of_lt (position_lt_length k.unstopped.front hr))]
      exact h.event r hr
    · obtain ⟨⟨he, hle⟩, -⟩ := k.rule r hr
      obtain ⟨name, hlabel, -⟩ := h.exists_label he hle
      refine ⟨he, ?_⟩
      rw [rule?_position hr, labelsBefore_append k.unstopped (Nat.le_refl _),
        labelsBefore_length k.unstopped.front, hlabel]
      rfl
  · intro r hr
    rcases hrules r hr with hr | hr
    · rw [contextAt_append_of_mem k.unstopped hr]
      exact h.context r hr
    · rw [rule?_position hr, contextAt_append k.unstopped (Nat.le_refl _)]
      exact (k.rule r hr).2.2.1
  · intro r hr
    rw [k.topState]
    rcases hrules r hr with hr | hr
    · exact h.target r hr
    · exact (k.rule r hr).2.1
  · rw [k.topState, k.topEvent]
    exact h.cells
  · intro r hr
    rcases hrules r hr with hr | hr
    · exact h.position r hr
    · rw [rule?_position hr]
      exact (k.rule r hr).2.2.2
  · intro s hs hle
    rw [k.label?]
    exact h.states s hs (k.topState ▸ hle)
  · intro e he hle
    rw [k.label?]
    exact h.events e he (k.topEvent ▸ hle)

end Admits

/-- A state is selected once more, and a transition without a handler declared for it. -/
def amended (ds : Description η) (s : StateId) (e : EventId) (target : StateId) : Description η :=
  ds ++ [.source s] ++ [.next e target none]

section
variable (hds : ds.Unstopped)
include hds

theorem source_unstopped (s : StateId) : (ds ++ [Line.source s]).Unstopped :=
  unstopped_append_iff.mpr ⟨hds, List.forall_mem_singleton.mpr rfl⟩

theorem amended_unstopped (s : StateId) (e : EventId) (target : StateId) :
    (ds.amended s e target).Unstopped :=
  unstopped_append_iff.mpr ⟨source_unstopped hds s, List.forall_mem_singleton.mpr rfl⟩

theorem admits_source (hs : s.isReserved = false) (hle : s.index ≤ ds.topState) :
    ds.Admits (.source s) width where
  unstopped := source_unstopped hds s
  silent := fun space => by cases space <;> rfl
  entry := nofun
  selected := fun s' hs' => Option.some.inj hs' ▸ ⟨hs, hle⟩
  rule := nofun

variable (hs : s.isReserved = false)
include hs

theorem contextAt_source : (ds ++ [Line.source s]).contextAt (ds ++ [Line.source s]).length =
    some s := by
  rw [List.length_append, List.length_singleton,
    contextAt_append_length (source_unstopped hds s)]
  simp [Line.selected?, hs]

/-- The new transition is the one of its pair, and every other pair keeps its own. -/
theorem rule?_amended (s' : StateId) (e' : EventId) :
    (ds.amended s e target).rule? s' e' =
      if (s', e') = (s, e) then some ⟨ds.length + 1, e, target, none⟩ else ds.rule? s' e' := by
  rw [amended, rule?_append (amended_unstopped hds s e target), Line.rule?, contextAt_source hds hs,
    rule?_append (source_unstopped hds s)]
  simp [Line.rule?, eq_comm, and_comm]

/-- The new transition repeats the one that its pair has. -/
theorem repeatViolations_amended (he : e.isReserved = false) :
    (ds.amended s e target).repeatViolations = ds.repeatViolations ++
      ((ds.rule? s e).map fun earlier => .repeated (ds.length + 1) earlier.position s e).toList := by
  have hsource := source_unstopped hds s
  have hcontext := contextAt_source hds hs
  have hlast := earlierRules_getLast? hsource s e
  rw [rule?_append hsource] at hlast
  rw [amended, repeatViolations_append (amended_unstopped hds s e target),
    repeatViolations_append hsource]
  rw [List.length_append, List.length_singleton] at hlast hcontext ⊢
  simp only [Line.rule?, Option.bind_some, Option.bind_none, Option.toList_none, List.append_nil,
    repeatViolation?, hcontext, he, hlast, Bool.false_eq_true, if_false]

end

/-- What the two lines need is there wherever the numbers are those of the description. -/
theorem admits_amended (hds : ds.Unstopped)
    (hs : s.isReserved = false ∧ s.index ≤ ds.topState)
    (htarget : target.isReserved = false ∧ target.index ≤ ds.topState)
    (he : e.isReserved = false ∧ e.index ≤ ds.topEvent) (hroom : ds.length + 1 < width.capacity) :
    ds.Admits (.source s) width ∧ (ds ++ [Line.source s]).Admits (.next e target none) width := by
  have hsource : ds.Admits (.source s) width := admits_source hds hs.1 hs.2
  refine ⟨hsource, amended_unstopped hds s e target, fun space => by cases space <;> rfl, nofun,
    nofun, fun r hr => ?_⟩
  obtain rfl := Option.some.inj hr
  refine ⟨?_, ?_, ?_, ?_⟩
  · rwa [hsource.topEvent]
  · rwa [hsource.topState]
  · rw [contextAt_source hds hs.1]
    rfl
  · rwa [List.length_append, List.length_singleton]

/-- Where repetitions are all that is left to find, they are what is reported. -/
theorem Lawful.problems_reject (h : ds.Lawful ⟨width, .lastWins⟩) :
    ds.problems ⟨width, .reject⟩ = ds.repeatViolations := by
  have hnone := violations_eq_nil_iff.mpr h
  rw [violations_eq, policyViolations, List.append_nil] at hnone
  rw [problems_eq_violations, violations_eq, hnone]
  rfl

/-- The one thing that can be wrong with what is added. -/
theorem Lawful.problems_amended (h : ds.Lawful ⟨width, .reject⟩) (hds : ds.Unstopped)
    (hs : s.isReserved = false) (he : e.isReserved = false)
    (hamended : (ds.amended s e target).Lawful ⟨width, .lastWins⟩) :
    (ds.amended s e target).problems ⟨width, .reject⟩ =
      ((ds.rule? s e).map fun earlier =>
        .repeated (ds.length + 1) earlier.position s e).toList := by
  rw [hamended.problems_reject, repeatViolations_amended hds hs he, h.once rfl, List.nil_append]

end Description

namespace Table
variable {t t' : Table η κ} {ds : Description η} {width : CellWidth} {s target : StateId}
  {e : EventId}

/-- A table with one transition more than another. All else is as it was: limits, names, entry handlers
and the transitions of all other pairs, each in its place. -/
structure Amends (t' t : Table η κ) (x : Transition) : Prop where
  name : t'.name = t.name
  stateLimit : t'.stateLimit = t.stateLimit
  eventLimit : t'.eventLimit = t.eventLimit
  states : t'.states = t.states
  events : t'.events = t.events
  lines : ∀ i < t.lines.size, t'.lines[i]? = t.lines[i]?
  amended : t'.lookup x.source x.event = .ok (some x)
  others : ∀ s e, (s, e) ≠ (x.source, x.event) → t'.lookup s e = t.lookup s e

theorem Represents.amends (k : t.Represents ds) (k' : t'.Represents (ds.amended s e target))
    (hname : t'.name = t.name) (hsource : ds.Admits (.source s) width)
    (hnext : (ds ++ [Line.source s]).Admits (.next e target none) width)
    (hs : s.index < t.stateLimit) (he : e.index < t.eventLimit) :
    t'.Amends t ⟨s, e, target, false, ds.length + 1⟩ := by
  have hds : ds.Unstopped := hsource.unstopped.front
  have hs₀ : s.isReserved = false := (hsource.selected s rfl).1
  have htopState : (ds.amended s e target).topState = ds.topState :=
    hnext.topState.trans hsource.topState
  have htopEvent : (ds.amended s e target).topEvent = ds.topEvent :=
    hnext.topEvent.trans hsource.topEvent
  have hnames {space : Space} (n : Number space) : (ds.amended s e target).nameOf n = ds.nameOf n :=
    (hnext.nameOf n).trans (hsource.nameOf n)
  have hentry (s' : StateId) : (ds.amended s e target).entryHandler? s' = ds.entryHandler? s' :=
    (hnext.entryHandler? s').trans (hsource.entryHandler? s')
  have hstateLimit : t'.stateLimit = t.stateLimit := by
    rw [k'.stateLimit, k.stateLimit, htopState]
  have heventLimit : t'.eventLimit = t.eventLimit := by
    rw [k'.eventLimit, k.eventLimit, htopEvent]
  refine ⟨hname, hstateLimit, heventLimit, k'.states_congr k htopState hnames hentry,
    k'.events_congr k htopEvent hnames, fun i hi => ?_, ?_, fun s' e' hne => ?_⟩
  · rw [k.lines, List.size_toArray] at hi
    rw [k'.lines, k.lines, List.getElem?_toArray, List.getElem?_toArray, Description.amended,
      List.append_assoc, List.getElem?_append_left hi]
  · rw [k'.lookup_eq (hstateLimit ▸ hs) (heventLimit ▸ he),
      Description.rule?_amended hds hs₀, if_pos rfl]
    rfl
  · rw [k'.lookup_checked, k.lookup_checked, checkState, checkState, checkEvent, checkEvent, hname,
      hstateLimit, heventLimit, Description.transition?, Description.transition?,
      Description.rule?_amended hds hs₀, if_neg hne]

end Table

namespace Blueprint
variable {b : Blueprint κ} {ds : Description η} {t : Table η κ} {width : CellWidth}
  {s target : StateId} {e : EventId}

/-- A description is accepted exactly where it has no problem. -/
theorem accepted_iff (b : Blueprint κ) (ds : Description η) :
    (∃ t, (b.build ds).1 = .ok t) ↔ ds.problems b.settings = [] := by
  rw [Description.problems_eq_violations, Description.violations_eq_nil_iff]
  constructor
  · intro h
    obtain ⟨t, ht⟩ := h
    exact (represents_of_build ht).1
  · intro h
    obtain ⟨t, hbuild⟩ := build_of_lawful h
    exact ⟨t, congrArg Prod.fst hbuild⟩

theorem build_of_problems {p : Problem} {ps : List Problem} (h : ds.problems b.settings = p :: ps) :
    (b.build ds).1 = .error (.rejected b.name (p :: ps)) := by
  have hcheck : ds.check b.settings = .error (p :: ps) := by rw [Description.check, h]
  rw [build_rejected hcheck]

/-- A transition that is added to an accepted description, between numbers in range and at a place
that a cell can hold, changes one cell where the last transition of a pair wins. Where repetitions
are refused, it is accepted exactly if its pair has no transition yet; otherwise it is the one
thing that is reported, together with the place of the other. -/
theorem amendment_exact (hds : ds.Unstopped)
    (h : ((b.withSettings ⟨width, .lastWins⟩).build ds).1 = .ok t)
    (hs : 1 ≤ s.index ∧ s.index < t.stateLimit)
    (htarget : 1 ≤ target.index ∧ target.index < t.stateLimit)
    (he : 1 ≤ e.index ∧ e.index < t.eventLimit) (hroom : ds.length + 1 < width.capacity) :
    (∃ t', ((b.withSettings ⟨width, .lastWins⟩).build
          (ds ++ [.source s, .next e target none])).1 = .ok t' ∧
        t'.Amends t ⟨s, e, target, false, ds.length + 1⟩) ∧
      ∀ t₀, ((b.withSettings ⟨width, .reject⟩).build ds).1 = .ok t₀ →
        ((∃ t', ((b.withSettings ⟨width, .reject⟩).build
            (ds ++ [.source s, .next e target none])).1 = .ok t') ↔ t₀.lookup s e = .ok none) ∧
        ∀ x, t₀.lookup s e = .ok (some x) → ((b.withSettings ⟨width, .reject⟩).build
            (ds ++ [.source s, .next e target none])).1 =
          .error (.rejected b.name [.repeated (ds.length + 1) x.position s e]) := by
  obtain ⟨hlawful, k, hname, -⟩ := represents_of_build h
  have hS := k.stateLimit
  have hE := k.eventLimit
  have hs₀ := Number.isReserved_of_pos hs.1
  have he₀ := Number.isReserved_of_pos he.1
  obtain ⟨hsource, hnext⟩ := Description.admits_amended hds ⟨hs₀, by omega⟩
    ⟨Number.isReserved_of_pos htarget.1, by omega⟩ ⟨he₀, by omega⟩ hroom
  have hamended : (ds.amended s e target).Lawful ⟨width, .lastWins⟩ :=
    hnext.lawful (hsource.lawful hlawful)
  have hlines : ds ++ [.source s, .next e target none] = ds.amended s e target :=
    List.append_cons ..
  rw [hlines]
  refine ⟨?_, fun t₀ h₀ => ?_⟩
  · obtain ⟨t', hbuild⟩ := build_of_lawful (b := b.withSettings ⟨width, .lastWins⟩) hamended
    have hbuilt := congrArg Prod.fst hbuild
    obtain ⟨-, k', hname', -⟩ := represents_of_build hbuilt
    exact ⟨t', hbuilt, k.amends k' (hname'.trans hname.symm) hsource hnext hs.2 he.2⟩
  · obtain ⟨hlawful₀, k₀, -, -⟩ := represents_of_build h₀
    have hfound := k₀.lookup_eq (s := s) (e := e) (by rw [k₀.stateLimit]; omega)
      (by rw [k₀.eventLimit]; omega)
    have hproblems := Description.Lawful.problems_amended hlawful₀ hds hs₀ he₀ hamended
    have hlawful' := accepted_iff (b.withSettings ⟨width, .reject⟩) (ds.amended s e target)
    rw [withSettings, hproblems] at hlawful'
    rw [withSettings, hlawful', hfound]
    cases hrule : ds.rule? s e with
    | none =>
      refine ⟨iff_of_true rfl rfl, fun x hx => ?_⟩
      cases hx
    | some r =>
      refine ⟨iff_of_false (fun h => by cases h) (fun h => by cases h), fun x hx => ?_⟩
      obtain rfl := Option.some.inj (Except.ok.inj hx)
      rw [hrule] at hproblems
      exact build_of_problems hproblems

/-- Without its last two lines the turnstile has one transition from state 1 on event 1, at place 3. -/
theorem turnstile_amended : ∃ t t' t₀ : Table Unit Unit,
    (build ⟨"turnstile", ⟨.narrow, .lastWins⟩, none⟩ (turnstile.take 6)).1 = .ok t ∧
      (build ⟨"turnstile", ⟨.narrow, .reject⟩, none⟩ (turnstile.take 6)).1 = .ok t₀ ∧
      (build ⟨"turnstile", ⟨.narrow, .lastWins⟩, none⟩
        (turnstile.take 6 ++ [.source ⟨1⟩, .next ⟨1⟩ ⟨1⟩ none])).1 = .ok t' ∧
      t'.Amends t ⟨⟨1⟩, ⟨1⟩, ⟨1⟩, false, 7⟩ ∧
      (build ⟨"turnstile", ⟨.narrow, .reject⟩, (none : Option Unit)⟩
        (turnstile.take 6 ++ [.source ⟨1⟩, .next ⟨1⟩ ⟨1⟩ none])).1 =
          .error (.rejected "turnstile" [.repeated 7 3 ⟨1⟩ ⟨1⟩]) := by
  let b : Blueprint Unit := ⟨"turnstile", {}, none⟩
  have hunstopped : Description.Unstopped (turnstile.take 6) := by
    unfold Description.Unstopped
    decide
  have hcheck (repeats : RepeatPolicy) :
      Description.check (turnstile.take 6) ⟨.narrow, repeats⟩ = .ok ⟨3, 3, 6⟩ := by
    cases repeats <;> decide
  obtain ⟨t, hbuild, k, -⟩ := build_ok (b := b.withSettings ⟨.narrow, .lastWins⟩) (hcheck .lastWins)
  obtain ⟨t₀, hbuild₀, k₀, -⟩ := build_ok (b := b.withSettings ⟨.narrow, .reject⟩) (hcheck .reject)
  have hstates : 1 ≤ (⟨1⟩ : StateId).index ∧ (⟨1⟩ : StateId).index < t.stateLimit := by
    rw [k.stateLimit]
    decide
  have hevents : 1 ≤ (⟨1⟩ : EventId).index ∧ (⟨1⟩ : EventId).index < t.eventLimit := by
    rw [k.eventLimit]
    decide
  obtain ⟨⟨t', hbuilt', hamends⟩, hreject⟩ := amendment_exact (b := b) hunstopped
    (congrArg Prod.fst hbuild) hstates hstates hevents (by decide)
  have hbuilt₀ := congrArg Prod.fst hbuild₀
  have hfound : t₀.lookup ⟨1⟩ ⟨1⟩ = .ok (some ⟨⟨1⟩, ⟨1⟩, ⟨2⟩, false, 3⟩) := by
    rw [k₀.lookup_eq (by rw [k₀.stateLimit]; decide) (by rw [k₀.eventLimit]; decide)]
    rfl
  exact ⟨t, t', t₀, congrArg Prod.fst hbuild, hbuilt₀, hbuilt', hamends,
    (hreject t₀ hbuilt₀).2 _ hfound⟩

end Blueprint
end StateMachine

import Mathlib.Data.List.Nodup
import Mathlib.Data.List.Range
import StateMachine.Proofs.Lookup
import StateMachine.Table.Summary

namespace StateMachine

namespace Description
variable {η : Type} {ds : Description η} {settings : Settings} {s : StateId} {e : EventId}
  {r : Rule η}

/-- A later transition of the same state on the same event takes the place of this one. -/
def Superseded (ds : Description η) (r : Rule η) : Prop :=
  ∃ r' ∈ ds.rules, r.position < r'.position ∧ r'.event = r.event ∧
    ds.contextAt r'.position = ds.contextAt r.position

theorem declares_unique {s' : StateId} {e' : EventId} (h : ds.Declares s e r)
    (h' : ds.Declares s' e' r) : s = s' ∧ e = e' :=
  ⟨Option.some.inj (h.2.2.symm.trans h'.2.2), h.2.1.symm.trans h'.2.1⟩

theorem not_superseded_of_rule? (h : ds.rule? s e = some r) : ¬ ds.Superseded r := by
  obtain ⟨⟨-, he, hs⟩, hlast⟩ := rule?_eq_some_iff.mp h
  intro hsuperseded
  obtain ⟨r', hr', hlt, he', hs'⟩ := hsuperseded
  have hle := hlast r' ⟨hr', he'.trans he, hs'.trans hs⟩
  omega

theorem Lawful.unreserved (h : ds.Lawful settings) (hr : ds.Declares s e r) :
    s.isReserved = false ∧ e.isReserved = false := by
  obtain ⟨hmem, rfl, hs⟩ := hr
  exact ⟨(contextAt_selected hs).1, (h.event r hmem).1⟩

/-- The pair of a lawful transition lies within the tops. -/
theorem Lawful.within (h : ds.Lawful settings) (hr : ds.Declares s e r) :
    s.index ≤ ds.topState ∧ e.index ≤ ds.topEvent := by
  obtain ⟨hmem, rfl, hs⟩ := hr
  obtain ⟨-, -, he, s', hs', hlt⟩ := h.fits.rule r hmem
  obtain rfl : s = s' := Option.some.inj (hs.symm.trans hs')
  exact ⟨Nat.le_of_lt_succ hlt, Nat.le_of_lt_succ he⟩

/-- A transition that nothing supersedes is the one of its pair. -/
theorem Lawful.rule?_of_not_superseded (h : ds.Lawful settings) (hr : r ∈ ds.rules)
    (hlast : ¬ ds.Superseded r) : ∃ s, ds.rule? s r.event = some r := by
  obtain ⟨s, hs⟩ := Option.isSome_iff_exists.mp (h.context r hr)
  refine ⟨s, rule?_eq_some_iff.mpr ⟨⟨hr, rfl, hs⟩, ?_⟩⟩
  intro r' hdeclares
  obtain ⟨hr', he', hs'⟩ := hdeclares
  by_contra hle
  exact hlast ⟨r', hr', Nat.lt_of_not_le hle, he', hs'.trans hs.symm⟩

/-- Where repetitions are refused, no transition takes the place of another. -/
theorem Lawful.not_superseded (h : ds.Lawful settings) (hrepeats : settings.repeats = .reject)
    (hr : r ∈ ds.rules) : ¬ ds.Superseded r := by
  intro hsuperseded
  obtain ⟨r', hr', hlt, he, hs⟩ := hsuperseded
  have hnone := List.filterMap_eq_nil_iff.mp (h.once hrepeats) r' hr'
  obtain ⟨s, hcontext⟩ := Option.isSome_iff_exists.mp (h.context r' hr')
  have hearlier : r ∈ ds.earlierRules s r'.event r'.position := by
    refine List.mem_filter.mpr ⟨hr, ?_⟩
    simp [hlt, he, ← hs, hcontext]
  simp only [repeatViolation?, hcontext, (h.event r' hr').1, Bool.false_eq_true, if_false,
    Option.map_eq_none_iff, List.getLast?_eq_none_iff] at hnone
  rw [hnone] at hearlier
  cases hearlier

theorem entryHandler?_isSome_iff :
    (ds.entryHandler? s).isSome = true ↔ ∃ handler, Line.onEntry s handler ∈ ds.active := by
  constructor
  · intro h
    obtain ⟨handler, hhandler⟩ := Option.isSome_iff_exists.mp h
    exact ⟨handler, onEntry_of_entryHandler? hhandler⟩
  · intro h
    obtain ⟨handler, hd⟩ := h
    rw [entryHandler?, List.findSome?_isSome_iff]
    exact ⟨_, List.mem_reverse.mpr hd, by simp⟩

/-- What a listing shows of a pair. -/
def transition? (ds : Description η) (p : StateId × EventId) : Option Transition :=
  (ds.rule? p.1 p.2).map fun r => ⟨p.1, p.2, r.target, r.handler.isSome, r.position⟩

theorem transition?_eq_some {x : Transition} (h : ds.transition? (s, e) = some x) :
    x.source = s ∧ x.event = e ∧ ∃ r, ds.rule? s e = some r ∧ r.position = x.position := by
  obtain ⟨r, hr, rfl⟩ := Option.map_eq_some_iff.mp h
  exact ⟨rfl, rfl, r, hr, rfl⟩

/-- The state of a number, if it is shown among those with an entry handler. -/
def entryState? (ds : Description η) (n : Nat) : Option StateId :=
  if (ds.entryHandler? (.ofNat n)).isSome then some (.ofNat n) else none

theorem entryState?_eq_some {n : Nat} (h : ds.entryState? n = some s) :
    .ofNat n = s ∧ (ds.entryHandler? s).isSome = true := by
  obtain ⟨hsome, hn⟩ := Option.ite_none_right_eq_some.mp h
  obtain rfl := Option.some.inj hn
  exact ⟨rfl, hsome⟩

end Description

/-- By state, and for one state by event. -/
def Transition.Precedes (x y : Transition) : Prop :=
  x.source.index < y.source.index ∨ x.source = y.source ∧ x.event.index < y.event.index

theorem Transition.Precedes.ne {x y : Transition} (h : x.Precedes y) : x ≠ y := by
  intro hxy
  subst hxy
  rcases h with h | ⟨-, h⟩ <;> exact Nat.lt_irrefl _ h

/-- A pass over a list that fails nowhere. -/
theorem mapM_eq_ok {ε α β : Type} {f : α → Except ε β} {g : α → β} {xs : List α}
    (h : ∀ x ∈ xs, f x = .ok (g x)) : xs.mapM f = .ok (xs.map g) := by
  induction xs with
  | nil => rfl
  | cons x xs ih =>
    obtain ⟨hx, hxs⟩ := List.forall_mem_cons.mp h
    rw [List.mapM_cons, hx, ih hxs]
    rfl

namespace Table
variable {η κ : Type} {t : Table η κ} {ds : Description η} {settings : Settings}

theorem Represents.stateLimit_le (k : t.Represents ds) : t.stateLimit ≤ 65536 := by
  rw [k.stateLimit]
  exact ds.topState_lt

theorem Represents.eventLimit_le (k : t.Represents ds) : t.eventLimit ≤ 65536 := by
  rw [k.eventLimit]
  exact ds.topEvent_lt

/-- No number below a limit is cut off, not even below the largest. -/
theorem Represents.index_ofNat (k : t.Represents ds) :
    (∀ n < t.stateLimit, (.ofNat n : StateId).index = n) ∧
      ∀ n < t.eventLimit, (.ofNat n : EventId).index = n :=
  ⟨fun _ hn => Number.index_ofNat (Nat.lt_of_lt_of_le hn k.stateLimit_le),
    fun _ hn => Number.index_ofNat (Nat.lt_of_lt_of_le hn k.eventLimit_le)⟩

/-- An array with a slot for every number below its size, read as a list. -/
theorem toList_of_slots {space : Space} {α : Type} {xs : Array α} {f : Number space → α}
    (hsize : xs.size ≤ 65536) (h : ∀ n : Number space, n.index < xs.size → xs[n.index]? = some (f n)) :
    xs.toList = (List.range xs.size).map fun n => f (.ofNat n) := by
  apply List.ext_getElem?
  intro n
  rw [List.getElem?_map, Array.getElem?_toList]
  by_cases hn : n < xs.size
  · have hindex : (Number.ofNat n : Number space).index = n := Number.index_ofNat (by omega)
    have hslot := h (.ofNat n) (by omega)
    rw [hindex] at hslot
    rw [hslot, List.getElem?_range hn, Option.map_some]
  · rw [Array.getElem?_eq_none (by omega), List.getElem?_eq_none (by simpa using hn),
      Option.map_none]

theorem Represents.states_toList (k : t.Represents ds) :
    t.states.toList = (List.range t.stateLimit).map fun n =>
      ⟨ds.nameOf (.ofNat n : StateId), ds.entryHandler? (.ofNat n)⟩ := by
  rw [toList_of_slots (k.states_size.trans_le k.stateLimit_le)
    (k.states_size.symm ▸ k.states), k.states_size]

theorem Represents.events_toList (k : t.Represents ds) :
    t.events.toList = (List.range t.eventLimit).map fun n => ds.nameOf (.ofNat n : EventId) := by
  rw [toList_of_slots (k.events_size.trans_le k.eventLimit_le)
    (k.events_size.symm ▸ k.events), k.events_size]

theorem Represents.mem_pairs (k : t.Represents ds) {s : StateId} {e : EventId} :
    (s, e) ∈ t.pairs ↔ (s.isReserved = false ∧ s.index < t.stateLimit) ∧
      e.isReserved = false ∧ e.index < t.eventLimit := by
  obtain ⟨hstate, hevent⟩ := k.index_ofNat
  simp only [pairs, List.mem_flatMap, List.mem_map, List.mem_range'_1, Prod.mk.injEq]
  constructor
  · intro hpair
    obtain ⟨m, hm, n, hn, rfl, rfl⟩ := hpair
    have hS := k.stateLimit_le
    have hE := k.eventLimit_le
    rw [hstate m (by omega), hevent n (by omega)]
    exact ⟨⟨Number.isReserved_ofNat (by omega) (by omega), by omega⟩,
      Number.isReserved_ofNat (by omega) (by omega), by omega⟩
  · intro hrange
    obtain ⟨⟨hs, hs'⟩, he, he'⟩ := hrange
    have hs₀ := Number.index_ne_zero hs
    have he₀ := Number.index_ne_zero he
    exact ⟨s.index, by omega, e.index, by omega, s.ofNat_index, e.ofNat_index⟩

/-- The pair of a transition is one of those that are looked up. -/
theorem Represents.mem_pairs_of_rule? (k : t.Represents ds) (h : ds.Lawful settings) {s : StateId}
    {e : EventId} {r : Rule η} (hr : ds.rule? s e = some r) : (s, e) ∈ t.pairs := by
  have hdeclares := Description.declares_of_rule? hr
  obtain ⟨hs, he⟩ := h.unreserved hdeclares
  obtain ⟨hs', he'⟩ := h.within hdeclares
  have hS := k.stateLimit
  have hE := k.eventLimit
  exact k.mem_pairs.mpr ⟨⟨hs, by omega⟩, he, by omega⟩

/-- Row after row, and each row from left to right. -/
theorem Represents.pairs_pairwise (k : t.Represents ds) :
    t.pairs.Pairwise fun p q =>
      p.1.index < q.1.index ∨ p.1 = q.1 ∧ p.2.index < q.2.index := by
  obtain ⟨hstate, hevent⟩ := k.index_ofNat
  refine List.pairwise_flatMap.mpr ⟨fun m _ => ?_, ?_⟩
  · refine List.pairwise_map.mpr ?_
    refine (List.pairwise_lt_range' 1).imp_of_mem fun {n n'} hn hn' hlt => .inr ⟨rfl, ?_⟩
    rw [List.mem_range'_1] at hn hn'
    dsimp only
    rw [hevent n (by omega), hevent n' (by omega)]
    exact hlt
  · refine (List.pairwise_lt_range' 1).imp_of_mem fun {m m'} hm hm' hlt p hp q hq => .inl ?_
    rw [List.mem_range'_1] at hm hm'
    obtain ⟨n, -, rfl⟩ := List.mem_map.mp hp
    obtain ⟨n', -, rfl⟩ := List.mem_map.mp hq
    dsimp only
    rw [hstate m (by omega), hstate m' (by omega)]
    exact hlt

theorem Represents.transitions_eq (k : t.Represents ds) :
    t.transitions = .ok (t.pairs.filterMap ds.transition?) := by
  have hfound : t.pairs.mapM (fun p => t.lookup p.1 p.2) = .ok (t.pairs.map ds.transition?) := by
    refine mapM_eq_ok fun p hp => ?_
    obtain ⟨⟨-, hs⟩, -, he⟩ := k.mem_pairs.mp hp
    exact k.lookup_eq hs he
  have hlisted : t.transitions = (do
      let found ← t.pairs.mapM fun p => t.lookup p.1 p.2
      return found.filterMap id) := rfl
  rw [hlisted, hfound]
  exact congrArg Except.ok List.filterMap_map

theorem lookup_in_range {s : StateId} {e : EventId} {x : Option Transition}
    (h : t.lookup s e = .ok x) : s.index < t.stateLimit ∧ e.index < t.eventLimit := by
  by_contra hout
  rw [lookup, cell, checkState, checkEvent] at h
  by_cases hs : s.index < t.stateLimit
  · have he : ¬ e.index < t.eventLimit := fun he => hout ⟨hs, he⟩
    simp only [if_pos hs, if_neg he] at h
    cases h
  · simp only [if_neg hs] at h
    cases h

/-- The listing has what a look-up finds. -/
theorem Represents.mem_transitions (k : t.Represents ds) (h : ds.Lawful settings)
    {x : Transition} :
    x ∈ t.pairs.filterMap ds.transition? ↔ t.lookup x.source x.event = .ok (some x) := by
  rw [List.mem_filterMap]
  constructor
  · intro hlisted
    obtain ⟨⟨s, e⟩, hp, hx⟩ := hlisted
    obtain ⟨rfl, rfl, -⟩ := Description.transition?_eq_some hx
    obtain ⟨⟨-, hs⟩, -, he⟩ := k.mem_pairs.mp hp
    rw [k.lookup_eq hs he]
    exact congrArg _ hx
  · intro hx
    obtain ⟨hs, he⟩ := lookup_in_range hx
    rw [k.lookup_eq hs he] at hx
    have hfound : ds.transition? (x.source, x.event) = some x := Except.ok.inj hx
    obtain ⟨-, -, r, hr, -⟩ := Description.transition?_eq_some hfound
    obtain ⟨hs₀, he₀⟩ := h.unreserved (Description.declares_of_rule? hr)
    exact ⟨_, k.mem_pairs.mpr ⟨⟨hs₀, hs⟩, he₀, he⟩, hfound⟩

theorem Represents.transitions_pairwise (k : t.Represents ds) :
    (t.pairs.filterMap ds.transition?).Pairwise Transition.Precedes := by
  refine k.pairs_pairwise.filterMap _ fun (s, e) (s', e') hlt x hx y hy => ?_
  obtain ⟨rfl, rfl, -⟩ := Description.transition?_eq_some hx
  obtain ⟨rfl, rfl, -⟩ := Description.transition?_eq_some hy
  exact hlt

/-- A position stands for one transition, and that for one pair. -/
theorem Represents.positions_nodup (k : t.Represents ds) :
    ((t.pairs.filterMap ds.transition?).map (·.position)).Nodup := by
  refine List.Nodup.map_on ?_ (k.transitions_pairwise.imp fun hxy => hxy.ne)
  intro x hx y hy hposition
  obtain ⟨p, -, hx⟩ := List.mem_filterMap.mp hx
  obtain ⟨q, -, hy⟩ := List.mem_filterMap.mp hy
  obtain ⟨-, -, r, hr, hrx⟩ := Description.transition?_eq_some (s := p.1) (e := p.2) hx
  obtain ⟨-, -, r', hr', hry⟩ := Description.transition?_eq_some (s := q.1) (e := q.2) hy
  have hd := Description.declares_of_rule? hr
  have hd' := Description.declares_of_rule? hr'
  obtain rfl : r = r' :=
    Description.rule_eq_of_position hd.1 hd'.1 (hrx.trans (hposition.trans hry.symm))
  have hpq : p = q := Prod.ext_iff.mpr (Description.declares_unique hd hd')
  rw [hpq] at hx
  exact Option.some.inj (hx.symm.trans hy)

/-- The positions in a listing are those of the transitions that count. -/
theorem Represents.mem_positions (k : t.Represents ds) (h : ds.Lawful settings) {i : Nat} :
    i ∈ (t.pairs.filterMap ds.transition?).map (·.position) ↔
      ∃ r ∈ ds.rules, r.position = i ∧ ¬ ds.Superseded r := by
  rw [List.mem_map]
  constructor
  · intro hlisted
    obtain ⟨x, hx, rfl⟩ := hlisted
    obtain ⟨p, -, hx⟩ := List.mem_filterMap.mp hx
    obtain ⟨-, -, r, hr, hrx⟩ := Description.transition?_eq_some (s := p.1) (e := p.2) hx
    exact ⟨r, (Description.declares_of_rule? hr).1, hrx, Description.not_superseded_of_rule? hr⟩
  · intro hdeclared
    obtain ⟨r, hr, rfl, hlast⟩ := hdeclared
    obtain ⟨s, hrule⟩ := h.rule?_of_not_superseded hr hlast
    have hpair := k.mem_pairs_of_rule? h hrule
    exact ⟨_, List.mem_filterMap.mpr ⟨(s, r.event), hpair, congrArg _ hrule⟩, rfl⟩

theorem Represents.hasEntryHandler_eq_ok (k : t.Represents ds) {s : StateId}
    (hs : s.index < t.stateLimit) :
    t.hasEntryHandler s = .ok (ds.entryHandler? s).isSome := by
  rw [hasEntryHandler, slot, checkState, if_pos hs, element, k.states s hs]
  rfl

theorem Represents.entryStates_eq (k : t.Represents ds) :
    t.entryStates = .ok ((List.range' 1 (t.stateLimit - 1)).filterMap ds.entryState?) := by
  have hfound : (List.range' 1 (t.stateLimit - 1)).mapM (fun n => do
      let s : StateId := .ofNat n
      return if ← t.hasEntryHandler s then some s else none) =
        .ok ((List.range' 1 (t.stateLimit - 1)).map ds.entryState?) := by
    refine mapM_eq_ok fun n hn => ?_
    rw [List.mem_range'_1] at hn
    have hlimit : (.ofNat n : StateId).index < t.stateLimit := by
      rw [k.index_ofNat.1 n (by omega)]
      omega
    dsimp only
    rw [k.hasEntryHandler_eq_ok hlimit]
    rfl
  rw [entryStates, hfound]
  change Except.ok (((List.range' 1 (t.stateLimit - 1)).map ds.entryState?).filterMap id) = _
  rw [List.filterMap_map]
  rfl

theorem Represents.entryStates_pairwise (k : t.Represents ds) :
    ((List.range' 1 (t.stateLimit - 1)).filterMap ds.entryState?).Pairwise
      fun s s' => s.index < s'.index := by
  refine List.pairwise_filterMap.mpr ?_
  refine (List.pairwise_lt_range' 1).imp_of_mem fun {n n'} hn hn' hlt s hs s' hs' => ?_
  rw [List.mem_range'_1] at hn hn'
  rw [← (Description.entryState?_eq_some hs).1, ← (Description.entryState?_eq_some hs').1,
    k.index_ofNat.1 n (by omega), k.index_ofNat.1 n' (by omega)]
  exact hlt

theorem Represents.mem_entryStates (k : t.Represents ds) (h : ds.Lawful settings)
    {s : StateId} :
    s ∈ (List.range' 1 (t.stateLimit - 1)).filterMap ds.entryState? ↔
      ∃ handler, Line.onEntry s handler ∈ ds.active := by
  rw [List.mem_filterMap, ← Description.entryHandler?_isSome_iff]
  constructor
  · intro hlisted
    obtain ⟨n, -, hn⟩ := hlisted
    exact (Description.entryState?_eq_some hn).2
  · intro hsome
    obtain ⟨handler, hd⟩ := Description.entryHandler?_isSome_iff.mp hsome
    have hs₀ := Number.index_ne_zero (h.selected _ hd s rfl)
    have hs := Description.index_le_topState hd (s := s) rfl
    have hS := k.stateLimit
    refine ⟨s.index, List.mem_range'_1.mpr ⟨by omega, by omega⟩, ?_⟩
    rw [Description.entryState?, s.ofNat_index, if_pos hsome]

/-- A listing of transitions, and of states with an entry handler, that has all that a description
declares and nothing else, in order and each once. Where repetitions are allowed, the last
transition of a pair stands for all of them. -/
structure Lists (t : Table η κ) (ds : Description η) (repeats : RepeatPolicy)
    (listed : List Transition) (entries : List StateId) : Prop where
  sorted : listed.Pairwise Transition.Precedes
  found : ∀ x, x ∈ listed ↔ t.lookup x.source x.event = .ok (some x)
  once : (listed.map (·.position)).Nodup
  latest : ∀ i, i ∈ listed.map (·.position) ↔
    ∃ r ∈ ds.rules, r.position = i ∧ ¬ ds.Superseded r
  complete : repeats = .reject → (listed.map (·.position)).Perm (ds.rules.map (·.position))
  entries_sorted : entries.Pairwise fun s s' => s.index < s'.index
  entries_found : ∀ s, s ∈ entries ↔ ∃ handler, Line.onEntry s handler ∈ ds.active

theorem Represents.lists (k : t.Represents ds) (h : ds.Lawful settings) :
    t.Lists ds settings.repeats (t.pairs.filterMap ds.transition?)
      ((List.range' 1 (t.stateLimit - 1)).filterMap ds.entryState?) := by
  refine ⟨k.transitions_pairwise, fun x => k.mem_transitions h, k.positions_nodup,
    fun i => k.mem_positions h, ?_, k.entryStates_pairwise, fun s => k.mem_entryStates h⟩
  intro hrepeats
  have hrules : (ds.rules.map (·.position)).Nodup :=
    List.pairwise_map.mpr (ds.rules_pairwise.imp Nat.ne_of_lt)
  refine (List.perm_ext_iff_of_nodup k.positions_nodup hrules).mpr fun i => ?_
  rw [k.mem_positions h, List.mem_map]
  constructor
  · intro hrule
    obtain ⟨r, hr, hi, -⟩ := hrule
    exact ⟨r, hr, hi⟩
  · intro hrule
    obtain ⟨r, hr, hi⟩ := hrule
    exact ⟨r, hr, hi, h.not_superseded hrepeats hr⟩

/-- No transition of a built table is lost, invented or listed twice, and its summary shows the same
listing. -/
theorem listing_exact {b : Blueprint κ} (h : (b.build ds).1 = .ok t) :
    ∃ (listed : List Transition) (summary : Summary),
      t.transitions = .ok listed ∧ t.summary = .ok summary ∧ summary.transitions = listed ∧
      t.Lists ds b.settings.repeats listed summary.entryHandlers ∧
      (∀ n < t.stateLimit, (.ofNat n : StateId).index = n) ∧
      ∀ n < t.eventLimit, (.ofNat n : EventId).index = n := by
  obtain ⟨hlawful, k, -, -⟩ := Blueprint.represents_of_build h
  have hsummary : t.summary = .ok ⟨t.name, t.stateLimit, t.eventLimit, t.width, t.stateNames,
      t.eventNames, (List.range' 1 (t.stateLimit - 1)).filterMap ds.entryState?,
      t.pairs.filterMap ds.transition?⟩ := by
    rw [summary, k.entryStates_eq, k.transitions_eq]
    rfl
  exact ⟨_, _, k.transitions_eq, hsummary, rfl, k.lists hlawful, k.index_ofNat⟩

/-- Of the two transitions of the turnstile from state 1 on event 1, the second is listed. -/
theorem turnstile_listing : ∃ t : Table Unit Unit,
    (Blueprint.build ⟨"turnstile", { repeats := .lastWins }, none⟩ turnstile).1 = .ok t ∧
      ∃ listed, t.transitions = .ok listed ∧ 7 ∈ listed.map (·.position) ∧
        3 ∉ listed.map (·.position) := by
  obtain ⟨t, hbuilt, -⟩ := turnstile_built (none : Option Unit)
  obtain ⟨listed, _, hlisted, -, -, hlists, -⟩ := listing_exact hbuilt
  have hlate : (⟨7, ⟨1⟩, ⟨2⟩, some ()⟩ : Rule Unit) ∈ turnstile.rules :=
    Description.mem_rules_iff.mpr rfl
  refine ⟨t, hbuilt, listed, hlisted, (hlists.latest 7).mpr ⟨_, hlate, rfl, ?_⟩, ?_⟩
  · intro hsuperseded
    obtain ⟨r, hr, hlt, -⟩ := hsuperseded
    have hlength : r.position < 8 :=
      Description.position_lt_length turnstile.active_unstopped hr
    exact absurd hlt (by dsimp only; omega)
  · intro hmem
    obtain ⟨r, hr, hposition, hlast⟩ := (hlists.latest 3).mp hmem
    have hline := Description.mem_rules_iff.mp hr
    rw [hposition] at hline
    obtain ⟨he, -⟩ := Line.next.inj (Option.some.inj hline)
    exact hlast ⟨_, hlate, by rw [hposition]; decide, he, by rw [hposition]; rfl⟩

end Table
end StateMachine

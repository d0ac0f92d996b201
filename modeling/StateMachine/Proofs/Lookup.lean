import StateMachine.Proofs.Build
import StateMachine.Table.Lookup

namespace StateMachine

namespace Description
variable {η : Type} {ds : Description η}

/-- A transition declared for a pair: it is on the event, and stands where the state is selected. -/
def Declares (ds : Description η) (s : StateId) (e : EventId) (r : Rule η) : Prop :=
  r ∈ ds.rules ∧ r.event = e ∧ ds.contextAt r.position = some s

theorem rule_eq_of_position {r r' : Rule η} (hr : r ∈ ds.rules) (hr' : r' ∈ ds.rules)
    (h : r.position = r'.position) : r = r' := by
  obtain ⟨i, e, target, handler⟩ := r
  obtain ⟨i', e', target', handler'⟩ := r'
  obtain rfl : i = i' := h
  have hline := mem_rules_iff.mp hr
  have hline' := mem_rules_iff.mp hr'
  simpa using hline.symm.trans hline'

theorem declares_of_rule? {s : StateId} {e : EventId} {r : Rule η} (h : ds.rule? s e = some r) :
    ds.Declares s e r := by
  have hmem : r ∈ ds.rules := List.mem_reverse.mp (List.mem_of_find?_eq_some h)
  have hpair := List.find?_some h
  simp only [Bool.and_eq_true, beq_iff_eq] at hpair
  exact ⟨hmem, hpair.1, hpair.2⟩

theorem rule?_eq_none_iff {s : StateId} {e : EventId} :
    ds.rule? s e = none ↔ ∀ r, ¬ ds.Declares s e r := by
  rw [rule?, List.find?_eq_none]
  constructor
  · rintro h r ⟨hr, he, hs⟩
    apply h r (List.mem_reverse.mpr hr)
    simp [he, hs]
  · intro h r hr hpair
    simp only [Bool.and_eq_true, beq_iff_eq] at hpair
    exact h r ⟨List.mem_reverse.mp hr, hpair.1, hpair.2⟩

/-- A transition stands at its position, counted over all lines. -/
theorem getElem?_of_mem_rules {r : Rule η} (hr : r ∈ ds.rules) :
    ds[r.position]? = some (.next r.event r.target r.handler) := by
  have hactive := mem_rules_iff.mp hr
  obtain ⟨hlt, -⟩ := List.getElem?_eq_some_iff.mp hactive
  rw [List.prefix_iff_getElem?.mp (List.takeWhile_prefix _) r.position hlt]
  exact List.getElem?_eq_getElem hlt ▸ hactive

/-- No transition of the pair stands after the one that is found. -/
theorem position_le_rule? {s : StateId} {e : EventId} {r r' : Rule η}
    (h : ds.rule? s e = some r) (hr' : ds.Declares s e r') : r'.position ≤ r.position := by
  obtain ⟨-, later, earlier, hsplit, hlater⟩ := List.find?_eq_some_iff_append.mp h
  have hsorted := List.pairwise_reverse.mpr ds.rules_pairwise
  have hmem : r' ∈ ds.rules.reverse := List.mem_reverse.mpr hr'.1
  -- What the search passed over stands later and is of another pair; the rest stands earlier.
  rw [hsplit] at hsorted hmem
  rcases List.mem_append.mp hmem with hmem | hmem
  · have hno := hlater r' hmem
    simp [hr'.2.1, hr'.2.2] at hno
  · rcases List.mem_cons.mp hmem with rfl | hmem
    · exact Nat.le_refl _
    · have hsorted := (List.pairwise_append.mp hsorted).2.1
      exact Nat.le_of_lt ((List.pairwise_cons.mp hsorted).1 r' hmem)

theorem rule?_eq_some_iff {s : StateId} {e : EventId} {r : Rule η} :
    ds.rule? s e = some r ↔
      ds.Declares s e r ∧ ∀ r', ds.Declares s e r' → r'.position ≤ r.position := by
  constructor
  · intro h
    exact ⟨declares_of_rule? h, fun r' hr' => position_le_rule? h hr'⟩
  · rintro ⟨hr, hlast⟩
    cases h : ds.rule? s e with
    | none => exact absurd hr (rule?_eq_none_iff.mp h r)
    | some r' =>
      have hr' := declares_of_rule? h
      have hle := hlast r' hr'
      have hge := position_le_rule? h hr
      rw [rule_eq_of_position hr'.1 hr.1 (by omega)]

theorem onEntry_of_entryHandler? {s : StateId} {handler : η}
    (h : ds.entryHandler? s = some handler) : .onEntry s handler ∈ ds.active := by
  obtain ⟨d, hd, hfound⟩ := List.exists_of_findSome?_eq_some h
  cases d with
  | onEntry s' handler' =>
    obtain ⟨rfl, hhandler⟩ := Option.ite_none_right_eq_some.mp hfound
    obtain rfl := Option.some.inj hhandler
    exact List.mem_reverse.mp hd
  | _ => cases hfound

end Description

namespace Table
variable {η κ : Type} {t : Table η κ} {ds : Description η}

theorem Represents.cell_eq (k : t.Represents ds) {s : StateId} {e : EventId}
    (hs : s.index < t.stateLimit) (he : e.index < t.eventLimit) :
    t.cell s e = .ok ((ds.rule? s e).map (·.position)) := by
  rw [cell, checkState, checkEvent, if_pos hs, if_pos he, k.cells s e hs he]
  rfl

theorem Represents.transitionAt_eq (k : t.Represents ds) {r : Rule η} (hr : r ∈ ds.rules) :
    t.transitionAt r.position = .ok (r.target, r.handler) := by
  rw [transitionAt, k.lines, List.getElem?_toArray, Description.getElem?_of_mem_rules hr]

theorem Represents.lookup_eq (k : t.Represents ds) {s : StateId} {e : EventId}
    (hs : s.index < t.stateLimit) (he : e.index < t.eventLimit) :
    t.lookup s e =
      .ok ((ds.rule? s e).map fun r => ⟨s, e, r.target, r.handler.isSome, r.position⟩) := by
  rw [lookup, k.cell_eq hs he]
  cases hr : ds.rule? s e with
  | none => rfl
  | some r =>
    have hat := k.transitionAt_eq (Description.declares_of_rule? hr).1
    simp only [Option.map_some, bind, Except.bind, hat]
    rfl

/-- Compilation of transitions is exact: a cell leads to the last transition of its own pair, and is
empty if there is none. -/
theorem lookup_exact {b : Blueprint κ} (h : (b.build ds).1 = .ok t) (s : StateId) (e : EventId)
    (hs : s.index < t.stateLimit) (he : e.index < t.eventLimit) :
    ∃ found, t.lookup s e = .ok found ∧
      (match found with
        | some transition => ∃ r, ds.Declares s e r ∧
          (∀ r', ds.Declares s e r' → r'.position ≤ r.position) ∧
          transition = ⟨s, e, r.target, r.handler.isSome, r.position⟩
        | none => ∀ r, ¬ ds.Declares s e r) ∧
      (s.isReserved = true ∨ e.isReserved = true → found = none) := by
  obtain ⟨hlawful, k, -, -⟩ := Blueprint.represents_of_build h
  refine ⟨_, k.lookup_eq hs he, ?_, ?_⟩
  · cases hr : ds.rule? s e with
    | none => exact Description.rule?_eq_none_iff.mp hr
    | some r =>
      obtain ⟨hdeclares, hlast⟩ := Description.rule?_eq_some_iff.mp hr
      exact ⟨r, hdeclares, hlast, rfl⟩
  · intro hreserved
    rw [Description.rule?_eq_none_iff.mpr, Option.map_none]
    rintro r ⟨hr, rfl, hcontext⟩
    have hstate := (Description.contextAt_selected hcontext).1
    have hevent := (hlawful.event r hr).1
    rcases hreserved with h₀ | h₀
    · rw [hstate] at h₀
      cases h₀
    · rw [hevent] at h₀
      cases h₀

end Table

/-- State 1 is selected twice. Its second transition on event 1 is the one that counts. -/
def turnstile : Description Unit :=
  [.event ⟨1⟩ "coin", .event ⟨2⟩ "push", .state ⟨1⟩ "locked", .next ⟨1⟩ ⟨2⟩ none,
    .state ⟨2⟩ "open", .next ⟨2⟩ ⟨1⟩ none, .source ⟨1⟩, .next ⟨1⟩ ⟨2⟩ (some ())]

theorem turnstile_check : turnstile.check { repeats := .lastWins } = .ok ⟨3, 3, 8⟩ := by
  decide

theorem turnstile_built {κ : Type} (logger : Option κ) : ∃ t : Table Unit κ,
    (Blueprint.build ⟨"turnstile", { repeats := .lastWins }, logger⟩ turnstile).1 = .ok t ∧
      t.Represents turnstile ∧ t.name = "turnstile" ∧ t.logger = logger := by
  obtain ⟨t, hbuild, k, hname, -, -, hlogger⟩ := Blueprint.build_ok
    (b := (⟨"turnstile", { repeats := .lastWins }, logger⟩ : Blueprint κ)) turnstile_check
  exact ⟨t, congrArg Prod.fst hbuild, k, hname, hlogger⟩

theorem turnstile_lookup : ∃ t : Table Unit Unit,
    (Blueprint.build ⟨"turnstile", { repeats := .lastWins }, none⟩ turnstile).1 = .ok t ∧
      ∃ found, t.lookup ⟨1⟩ ⟨1⟩ = .ok (some found) ∧ 7 ≤ found.position := by
  obtain ⟨t, hbuild, k, -⟩ := Blueprint.build_ok
    (b := (⟨"turnstile", { repeats := .lastWins }, none⟩ : Blueprint Unit)) turnstile_check
  have hbuilt := congrArg Prod.fst hbuild
  have hdeclares : turnstile.Declares ⟨1⟩ ⟨1⟩ ⟨7, ⟨1⟩, ⟨2⟩, some ()⟩ :=
    ⟨Description.mem_rules_iff.mpr rfl, rfl, rfl⟩
  obtain ⟨found, hfound, hexact, -⟩ := Table.lookup_exact hbuilt ⟨1⟩ ⟨1⟩
    (by rw [k.stateLimit]; decide) (by rw [k.eventLimit]; decide)
  refine ⟨t, hbuilt, ?_⟩
  cases found with
  | none => exact absurd hdeclares (hexact _)
  | some found =>
    obtain ⟨r, -, hlast, rfl⟩ := hexact
    exact ⟨_, hfound, hlast _ hdeclares⟩

end StateMachine

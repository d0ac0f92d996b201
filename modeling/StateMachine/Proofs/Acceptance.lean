import StateMachine.Proofs.Filling
import StateMachine.Proofs.Reports

namespace StateMachine.Description
variable {η : Type} {ds : Description η} {settings : Settings}

/-- The rules of the language, each of them kept. -/
structure Lawful (ds : Description η) (settings : Settings) : Prop where
  selected : ∀ d ∈ ds.active, ∀ s, d.selected? = some s → s.isReserved = false
  labelled : ∀ d ∈ ds.active, ∀ e name, d.label? .event = some (e, name) → e.isReserved = false
  event : ∀ r ∈ ds.rules, r.event.isReserved = false ∧ ds.labelsBefore r.event r.position = true
  context : ∀ r ∈ ds.rules, (ds.contextAt r.position).isSome = true
  target : ∀ r ∈ ds.rules, r.target.isReserved = false ∧ r.target.index ≤ ds.topState
  cells : (ds.topState + 1) * (ds.topEvent + 1) ≤ settings.width.capacity
  position : ∀ r ∈ ds.rules, r.position < settings.width.capacity
  states : ∀ s : StateId, s.isReserved = false → s.index ≤ ds.topState →
    (ds.label? s).getD "" ≠ ""
  events : ∀ e : EventId, e.isReserved = false → e.index ≤ ds.topEvent →
    (ds.label? e).getD "" ≠ ""
  once : settings.repeats = .reject → ds.repeatViolations = []

theorem lineViolations_eq_nil {d : Line η} {i : Nat} (hd : d.isStop = false) :
    ds.lineViolations d i = [] ↔
      (∀ s, d.selected? = some s → s.isReserved = false) ∧
      (∀ e name, d.label? .event = some (e, name) → e.isReserved = false) ∧
      ∀ r, d.rule? i = some r → (r.event.isReserved = false ∧ ds.labelsBefore r.event i = true) ∧
        (ds.contextAt i).isSome = true := by
  cases d with
  | stop => cases hd
  | next e target handler =>
    simp only [lineViolations, Line.selected?, Line.label?, Line.rule?, Option.some.injEq,
      forall_eq', reduceCtorEq, false_implies, implies_true, true_and, List.append_eq_nil_iff]
    cases e.isReserved <;> cases ds.labelsBefore e i <;> cases ds.contextAt i <;> simp
  | _ => simp [lineViolations, Line.selected?, Line.label?, Line.rule?]

theorem unnamed_eq_nil {space : Space} {top : Nat} (htop : top < 65536) :
    ds.unnamed space top = [] ↔ ∀ n : Number space, n.isReserved = false → n.index ≤ top →
      (ds.label? n).getD "" ≠ "" := by
  rw [unnamed, List.filter_eq_nil_iff]
  constructor
  · intro h n hn hle
    have hpos := Number.index_ne_zero hn
    have hmem : n ∈ (List.range' 1 top).map Number.ofNat :=
      List.mem_map.mpr ⟨n.index, by rw [List.mem_range'_1]; omega, n.ofNat_index⟩
    simpa using h n hmem
  · intro h n hn
    obtain ⟨i, hi, rfl⟩ := List.mem_map.mp hn
    rw [List.mem_range'_1] at hi
    have hindex : (Number.ofNat i : Number space).index = i := Number.index_ofNat (by omega)
    have hne := h (.ofNat i) (Number.isReserved_ofNat (n := i) (by omega) (by omega)) (by omega)
    simpa using hne

theorem targetViolations_eq_nil :
    ds.targetViolations = [] ↔
      ∀ r ∈ ds.rules, r.target.isReserved = false ∧ r.target.index ≤ ds.topState := by
  rw [targetViolations, List.filterMap_eq_nil_iff]
  apply forall₂_congr
  intro r _
  cases hr : r.target.isReserved <;> simp

/-- Where transitions stand in order, none of them stands after the last. -/
theorem position_le_last {rules : List (Rule η)} {r last : Rule η}
    (hsorted : rules.Pairwise fun r r' => r.position < r'.position) (hr : r ∈ rules)
    (hlast : rules.getLast? = some last) : r.position ≤ last.position := by
  obtain ⟨front, rfl⟩ := List.getLast?_eq_some_iff.mp hlast
  rcases List.mem_append.mp hr with hr | hr
  · exact Nat.le_of_lt ((List.pairwise_append.mp hsorted).2.2 r hr last (by simp))
  · obtain rfl := List.mem_singleton.mp hr
    exact Nat.le_refl _

theorem positionViolations_eq_nil (capacity : Nat) :
    ds.positionViolations capacity = [] ↔ ∀ r ∈ ds.rules, r.position < capacity := by
  unfold positionViolations
  cases hlast : ds.rules.getLast? with
  | none =>
    rw [List.getLast?_eq_none_iff] at hlast
    simp [hlast]
  | some last =>
    have hmem : last ∈ ds.rules := List.mem_of_getLast? hlast
    dsimp only
    by_cases hfit : capacity ≤ last.position
    · rw [if_pos hfit]
      simp only [reduceCtorEq, false_iff]
      intro hall
      have := hall last hmem
      omega
    · rw [if_neg hfit]
      simp only [true_iff]
      intro r hr
      have := position_le_last ds.rules_pairwise hr hlast
      omega

theorem linesViolations_eq_nil :
    (ds.active.zipIdx.flatMap fun (d, position) => ds.lineViolations d position) = [] ↔
      (∀ d ∈ ds.active, ∀ s, d.selected? = some s → s.isReserved = false) ∧
      (∀ d ∈ ds.active, ∀ e name, d.label? .event = some (e, name) → e.isReserved = false) ∧
      ∀ r ∈ ds.rules, (r.event.isReserved = false ∧ ds.labelsBefore r.event r.position = true) ∧
        (ds.contextAt r.position).isSome = true := by
  rw [List.flatMap_eq_nil_iff]
  constructor
  · intro h
    have hline : ∀ d ∈ ds.active, ∃ i, ds.lineViolations d i = [] := by
      intro d hd
      obtain ⟨i, hi⟩ := List.mem_iff_getElem?.mp hd
      exact ⟨i, h (d, i) (List.mk_mem_zipIdx_iff_getElem?.mpr hi)⟩
    refine ⟨?_, ?_, ?_⟩
    · intro d hd
      obtain ⟨i, hi⟩ := hline d hd
      exact ((lineViolations_eq_nil (ds.active_unstopped d hd)).mp hi).1
    · intro d hd
      obtain ⟨i, hi⟩ := hline d hd
      exact ((lineViolations_eq_nil (ds.active_unstopped d hd)).mp hi).2.1
    · intro r hr
      have hr := List.mk_mem_zipIdx_iff_getElem?.mpr (mem_rules_iff.mp hr)
      exact ((lineViolations_eq_nil rfl).mp (h _ hr)).2.2 r rfl
  · rintro ⟨hselected, hlabelled, hrule⟩ ⟨d, i⟩ hdi
    have hd : d ∈ ds.active := List.mem_of_getElem? (List.mk_mem_zipIdx_iff_getElem?.mp hdi)
    refine (lineViolations_eq_nil (ds.active_unstopped d hd)).mpr
      ⟨hselected d hd, hlabelled d hd, ?_⟩
    intro r hr
    have hmem : r ∈ ds.rules := List.mem_filterMap.mpr ⟨(d, i), hdi, hr⟩
    simpa only [rule?_position hr] using hrule r hmem

theorem cellViolations_eq_nil {capacity : Nat} :
    ds.cellViolations capacity = [] ↔ (ds.topState + 1) * (ds.topEvent + 1) ≤ capacity := by
  unfold cellViolations
  dsimp only
  by_cases hfit : capacity < (ds.topState + 1) * (ds.topEvent + 1)
  · simp only [if_pos hfit, reduceCtorEq, false_iff]
    omega
  · simp only [if_neg hfit, true_iff]
    omega

theorem policyViolations_eq_nil {repeats : RepeatPolicy} :
    ds.policyViolations repeats = [] ↔ (repeats = .reject → ds.repeatViolations = []) := by
  cases repeats <;> simp [policyViolations]

/-- The rules are kept exactly where no violation is found. -/
theorem violations_eq_nil_iff : ds.violations settings = [] ↔ ds.Lawful settings := by
  simp only [violations, List.append_eq_nil_iff, List.map_eq_nil_iff, linesViolations_eq_nil,
    targetViolations_eq_nil, cellViolations_eq_nil, positionViolations_eq_nil,
    policyViolations_eq_nil, unnamed_eq_nil ds.topState_lt, unnamed_eq_nil ds.topEvent_lt]
  constructor
  · rintro ⟨⟨⟨⟨⟨⟨⟨hselected, hlabelled, hrule⟩, htarget⟩, hcells⟩, hposition⟩, hstates⟩, hevents⟩,
      honce⟩
    exact ⟨hselected, hlabelled, fun r hr => (hrule r hr).1, fun r hr => (hrule r hr).2, htarget,
      hcells, hposition, hstates, hevents, honce⟩
  · intro h
    exact ⟨⟨⟨⟨⟨⟨⟨h.selected, h.labelled, fun r hr => ⟨h.event r hr, h.context r hr⟩⟩, h.target⟩,
      h.cells⟩, h.position⟩, h.states⟩, h.events⟩, h.once⟩

theorem check_eq_ok_iff {x : Extent} :
    ds.check settings = .ok x ↔ ds.Lawful settings ∧ x = ds.extent := by
  rw [← violations_eq_nil_iff, ← problems_eq_violations, check]
  cases ds.problems settings <;> simp [eq_comm]

end StateMachine.Description

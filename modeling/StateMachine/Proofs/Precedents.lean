import Mathlib.Order.Bounds.Basic
import StateMachine.Proofs.Lookup
import StateMachine.Proofs.Problems

namespace StateMachine

namespace Description
variable {η : Type} {ds : Description η} {settings : Settings} {s : StateId} {e : EventId}
  {position earlier : Nat} {r : Rule η} {p : Problem}

/-- The positions at which transitions of a pair are declared. -/
def positions (ds : Description η) (s : StateId) (e : EventId) : Set Nat :=
  {i | ∃ r, ds.Declares s e r ∧ r.position = i}

theorem Declares.mem_positions (h : ds.Declares s e r) : r.position ∈ ds.positions s e :=
  ⟨r, h, rfl⟩

theorem mem_earlierRules :
    r ∈ ds.earlierRules s e position ↔ ds.Declares s e r ∧ r.position < position := by
  rw [earlierRules, List.mem_filter, Declares]
  simp only [Bool.and_eq_true, decide_eq_true_eq, beq_iff_eq]
  constructor
  · intro h
    obtain ⟨hr, ⟨hlt, he⟩, hs⟩ := h
    exact ⟨⟨hr, he, hs⟩, hlt⟩
  · intro h
    obtain ⟨⟨hr, he, hs⟩, hlt⟩ := h
    exact ⟨hr, ⟨hlt, he⟩, hs⟩

/-- The last of the earlier transitions stands at the greatest of the earlier positions. -/
theorem isGreatest_of_getLast? (h : (ds.earlierRules s e position).getLast? = some r) :
    IsGreatest {i ∈ ds.positions s e | i < position} r.position := by
  obtain ⟨hr, hlt⟩ := mem_earlierRules.mp (List.mem_of_getLast? h)
  refine ⟨⟨hr.mem_positions, hlt⟩, fun i hi => ?_⟩
  obtain ⟨⟨r', hr', rfl⟩, hlt'⟩ := hi
  have hsorted : (ds.earlierRules s e position).Pairwise fun r r' => r.position < r'.position :=
    ds.rules_pairwise.filter _
  exact position_le_last hsorted (mem_earlierRules.mpr ⟨hr', hlt'⟩) h

theorem earlier_eq_iff : ((ds.earlierRules s e position).getLast?.map Rule.position = some earlier) ↔
    IsGreatest {i ∈ ds.positions s e | i < position} earlier := by
  cases hlast : (ds.earlierRules s e position).getLast? with
  | none =>
    refine ⟨nofun, fun h => ?_⟩
    obtain ⟨⟨⟨r, hr, rfl⟩, hlt⟩, -⟩ := h
    have hmem := mem_earlierRules.mpr ⟨hr, hlt⟩
    rw [List.getLast?_eq_none_iff.mp hlast] at hmem
    cases hmem
  | some r =>
    have hgreatest := isGreatest_of_getLast? hlast
    rw [Option.map_some, Option.some.injEq]
    exact ⟨fun h => h ▸ hgreatest, hgreatest.unique⟩

theorem repeatViolation?_eq_iff : ds.repeatViolation? r = some (.repeated position earlier s e) ↔
    (ds.contextAt r.position = some s ∧ r.event = e ∧ r.position = position) ∧
      e.isReserved = false ∧ IsGreatest {i ∈ ds.positions s e | i < position} earlier := by
  rw [← earlier_eq_iff, repeatViolation?]
  cases ds.contextAt r.position with
  | none => simp
  | some s' =>
    dsimp only
    constructor
    · intro h
      split_ifs at h with hreserved
      obtain ⟨r', hr', heq⟩ := Option.map_eq_some_iff.mp h
      obtain ⟨rfl, rfl, rfl, rfl⟩ := Problem.repeated.inj heq
      exact ⟨⟨rfl, rfl, rfl⟩, by simpa using hreserved, by rw [hr']; rfl⟩
    · intro h
      obtain ⟨⟨hs, rfl, rfl⟩, hreserved, hearlier⟩ := h
      obtain rfl := Option.some.inj hs
      obtain ⟨r', hr', rfl⟩ := Option.map_eq_some_iff.mp hearlier
      rw [hreserved, hr']
      rfl

theorem mem_repeatViolations_iff : .repeated position earlier s e ∈ ds.repeatViolations ↔
    position ∈ ds.positions s e ∧ e.isReserved = false ∧
      IsGreatest {i ∈ ds.positions s e | i < position} earlier := by
  rw [repeatViolations, List.mem_filterMap]
  constructor
  · intro h
    obtain ⟨r, hr, hrepeated⟩ := h
    obtain ⟨⟨hs, he, hposition⟩, hrest⟩ := repeatViolation?_eq_iff.mp hrepeated
    exact ⟨⟨r, ⟨hr, he, hs⟩, hposition⟩, hrest⟩
  · intro h
    obtain ⟨⟨r, ⟨hr, he, hs⟩, hposition⟩, hrest⟩ := h
    exact ⟨r, hr, repeatViolation?_eq_iff.mpr ⟨⟨hs, he, hposition⟩, hrest⟩⟩

/-- Only the rule on repetitions reports any, and only where they are refused. -/
theorem mem_problems_iff_of_isRepeated (hp : p.isRepeated = true) :
    p ∈ ds.problems settings ↔ settings.repeats = .reject ∧ p ∈ ds.repeatViolations := by
  have hother : p ∉ ds.textViolations
      ++ (ds.cellViolations settings.width.capacity ++ ds.positionViolations settings.width.capacity)
      ++ ds.nameViolations := by
    intro hmem
    have hnot : p.isRepeated = false := by
      rcases List.mem_append.mp hmem with hmem | hmem
      · rcases List.mem_append.mp hmem with hmem | hmem
        · exact (plain_of_mem_textViolations hmem).2
        · exact (mem_capacityViolations hmem).2
      · exact (plain_of_mem_nameViolations hmem).2
    rw [hp] at hnot
    cases hnot
  rw [problems_eq_violations, violations_eq, List.mem_append, or_iff_right hother]
  cases settings.repeats <;> simp [policyViolations]

/-- A repetition is reported for every transition of a pair that has another before it, together with
the closest one. So the one that is named is the first of the pair exactly if it is the only one
before. -/
theorem repetition_exact (ds : Description η) (settings : Settings) (position earlier : Nat)
    (s : StateId) (e : EventId) :
    (.repeated position earlier s e ∈ ds.problems settings ↔
        settings.repeats = .reject ∧ position ∈ ds.positions s e ∧ e.isReserved = false ∧
          IsGreatest {i ∈ ds.positions s e | i < position} earlier) ∧
      (.repeated position earlier s e ∈ ds.problems settings →
        (IsLeast (ds.positions s e) earlier ↔
          ∀ i ∈ ds.positions s e, i < position → i = earlier)) := by
  have hreported : .repeated position earlier s e ∈ ds.problems settings ↔
      settings.repeats = .reject ∧ position ∈ ds.positions s e ∧ e.isReserved = false ∧
        IsGreatest {i ∈ ds.positions s e | i < position} earlier := by
    rw [mem_problems_iff_of_isRepeated rfl, mem_repeatViolations_iff]
  refine ⟨hreported, fun h => ?_⟩
  obtain ⟨-, -, -, ⟨hearlier, hlt⟩, hgreatest⟩ := hreported.mp h
  constructor
  · intro hleast i hi hbefore
    exact Nat.le_antisymm (hgreatest ⟨hi, hbefore⟩) (hleast.2 hi)
  · intro honly
    refine ⟨hearlier, fun i hi => ?_⟩
    by_cases hbefore : i < position
    · rw [honly i hi hbefore]
    · omega

end Description

/-- One pair with three transitions. -/
def thrice : Description Unit :=
  [.event ⟨1⟩ "go", .state ⟨1⟩ "a", .next ⟨1⟩ ⟨1⟩ none, .next ⟨1⟩ ⟨1⟩ none, .next ⟨1⟩ ⟨1⟩ none]

theorem thrice_problems : thrice.problems {} = [.repeated 3 2 ⟨1⟩ ⟨1⟩, .repeated 4 3 ⟨1⟩ ⟨1⟩] := by
  decide

theorem thrice_positions : 2 ∈ thrice.positions ⟨1⟩ ⟨1⟩ :=
  ⟨⟨2, ⟨1⟩, ⟨1⟩, none⟩, ⟨Description.mem_rules_iff.mpr rfl, rfl, rfl⟩, rfl⟩

/-- The third is told to repeat the second. -/
theorem thrice_closest : .repeated 4 3 ⟨1⟩ ⟨1⟩ ∈ thrice.problems {} ∧
    IsGreatest {i ∈ thrice.positions ⟨1⟩ ⟨1⟩ | i < 4} 3 ∧
    ¬ IsLeast (thrice.positions ⟨1⟩ ⟨1⟩) 3 := by
  have hmem : .repeated 4 3 ⟨1⟩ ⟨1⟩ ∈ thrice.problems {} := by simp [thrice_problems]
  obtain ⟨hreported, hfirst⟩ := Description.repetition_exact thrice {} 4 3 ⟨1⟩ ⟨1⟩
  refine ⟨hmem, (hreported.mp hmem).2.2.2, fun hleast => ?_⟩
  have honly := (hfirst hmem).mp hleast 2 thrice_positions (by decide)
  cases honly

/-- The transition that is named need not be the first of its pair. -/
theorem earlier_not_first : ¬ ∀ (ds : Description Unit) (settings : Settings) (position earlier : Nat)
    (s : StateId) (e : EventId), settings.repeats = .reject →
      .repeated position earlier s e ∈ ds.problems settings →
        IsLeast (ds.positions s e) earlier := by
  intro hfirst
  have hmem : .repeated 4 3 ⟨1⟩ ⟨1⟩ ∈ thrice.problems {} := by simp [thrice_problems]
  have hle : 3 ≤ 2 := (hfirst thrice {} 4 3 ⟨1⟩ ⟨1⟩ rfl hmem).2 thrice_positions
  omega

example : (Problem.repeated 4 3 ⟨1⟩ ⟨1⟩).message =
    "descriptor 4 redeclares the transition from state#1 on event#1 (first at 3)" := rfl

end StateMachine

import StateMachine.Proofs.Reports
import Mathlib.Tactic.SplitIfs

namespace StateMachine

namespace Problem

/-- The size that a report on capacity asks for. -/
def required? : Problem → Option Nat
  | overCapacity required _ => some required
  | _ => none

def isRepeated : Problem → Bool
  | repeated .. => true
  | _ => false

/-- A report that depends on the lines alone, and not on any setting. -/
def Plain (p : Problem) : Prop := p.required? = none ∧ p.isRepeated = false

end Problem

namespace Description
variable {η : Type} {ds : Description η} {p : Problem}

theorem plain_of_mem_lineViolations {d : Line η} {i : Nat} (h : p ∈ ds.lineViolations d i) :
    p.Plain := by
  cases d with
  | stop => cases h
  | next e target handler =>
    simp only [lineViolations, List.mem_append] at h
    rcases h with h | h
    · split_ifs at h
      · obtain rfl := List.mem_singleton.mp h
        exact ⟨rfl, rfl⟩
      · cases h
      · obtain rfl := List.mem_singleton.mp h
        exact ⟨rfl, rfl⟩
    · split_ifs at h
      · cases h
      · obtain rfl := List.mem_singleton.mp h
        exact ⟨rfl, rfl⟩
  | _ =>
    simp only [lineViolations, List.mem_ite_nil_right, List.mem_singleton] at h
    obtain ⟨-, rfl⟩ := h
    exact ⟨rfl, rfl⟩

theorem plain_of_mem_targetViolations (h : p ∈ ds.targetViolations) : p.Plain := by
  obtain ⟨r, -, hr⟩ := List.mem_filterMap.mp h
  obtain ⟨-, hp⟩ := Option.ite_none_right_eq_some.mp hr
  obtain rfl := Option.some.inj hp
  exact ⟨rfl, rfl⟩

theorem mem_repeatViolations (h : p ∈ ds.repeatViolations) :
    p.required? = none ∧ p.isRepeated = true := by
  obtain ⟨r, -, hr⟩ := List.mem_filterMap.mp h
  unfold repeatViolation? at hr
  split at hr
  · cases hr
  · split_ifs at hr
    obtain ⟨earlier, -, rfl⟩ := Option.map_eq_some_iff.mp hr
    exact ⟨rfl, rfl⟩

theorem mem_cellViolations {capacity : Nat} (h : p ∈ ds.cellViolations capacity) :
    p.required?.isSome = true ∧ p.isRepeated = false := by
  simp only [cellViolations, List.mem_ite_nil_right, List.mem_singleton] at h
  obtain ⟨-, rfl⟩ := h
  exact ⟨rfl, rfl⟩

theorem mem_positionViolations {capacity : Nat} (h : p ∈ ds.positionViolations capacity) :
    p.required?.isSome = true ∧ p.isRepeated = false := by
  unfold positionViolations at h
  split at h
  · simp only [List.mem_ite_nil_right, List.mem_singleton] at h
    obtain ⟨-, rfl⟩ := h
    exact ⟨rfl, rfl⟩
  · cases h

/-- What is wrong with the lines and with the targets of their transitions. -/
def textViolations (ds : Description η) : List Problem :=
  ds.active.zipIdx.flatMap (fun (d, position) => ds.lineViolations d position)
    ++ ds.targetViolations

/-- What is wrong with the names. -/
def nameViolations (ds : Description η) : List Problem :=
  (ds.unnamed .state ds.topState).map .unnamedState
    ++ (ds.unnamed .event ds.topEvent).map .unnamedEvent

theorem violations_eq (ds : Description η) (settings : Settings) :
    ds.violations settings = ds.textViolations
      ++ (ds.cellViolations settings.width.capacity
        ++ ds.positionViolations settings.width.capacity)
      ++ ds.nameViolations ++ ds.policyViolations settings.repeats := by
  simp only [violations, textViolations, nameViolations, List.append_assoc]

theorem plain_of_mem_textViolations (h : p ∈ ds.textViolations) : p.Plain := by
  rcases List.mem_append.mp h with h | h
  · obtain ⟨⟨d, i⟩, -, hd⟩ := List.mem_flatMap.mp h
    exact plain_of_mem_lineViolations hd
  · exact plain_of_mem_targetViolations h

theorem plain_of_mem_nameViolations (h : p ∈ ds.nameViolations) : p.Plain := by
  rcases List.mem_append.mp h with h | h
  · obtain ⟨s, -, rfl⟩ := List.mem_map.mp h
    exact ⟨rfl, rfl⟩
  · obtain ⟨e, -, rfl⟩ := List.mem_map.mp h
    exact ⟨rfl, rfl⟩

theorem mem_capacityViolations {capacity : Nat}
    (h : p ∈ ds.cellViolations capacity ++ ds.positionViolations capacity) :
    p.required?.isSome = true ∧ p.isRepeated = false := by
  rcases List.mem_append.mp h with h | h
  · exact mem_cellViolations h
  · exact mem_positionViolations h

theorem mem_policyViolations {repeats : RepeatPolicy} (h : p ∈ ds.policyViolations repeats) :
    p.required? = none ∧ p.isRepeated = true := by
  cases repeats with
  | reject => exact mem_repeatViolations h
  | lastWins => cases h

/-- The sizes that are asked for in vain, in the order of the reports. -/
theorem filterMap_required (ds : Description η) (settings : Settings) :
    (ds.violations settings).filterMap Problem.required? =
      (ds.cellViolations settings.width.capacity).filterMap Problem.required?
        ++ (ds.positionViolations settings.width.capacity).filterMap Problem.required? := by
  have htext : ds.textViolations.filterMap Problem.required? = [] :=
    List.filterMap_eq_nil_iff.mpr fun p hp => (plain_of_mem_textViolations hp).1
  have hnames : ds.nameViolations.filterMap Problem.required? = [] :=
    List.filterMap_eq_nil_iff.mpr fun p hp => (plain_of_mem_nameViolations hp).1
  have hpolicy : (ds.policyViolations settings.repeats).filterMap Problem.required? = [] :=
    List.filterMap_eq_nil_iff.mpr fun p hp => (mem_policyViolations hp).1
  simp only [violations_eq, List.filterMap_append, htext, hnames, hpolicy, List.nil_append,
    List.append_nil]

end Description
end StateMachine

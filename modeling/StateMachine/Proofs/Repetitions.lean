import Mathlib.Data.List.Basic
import StateMachine.Proofs.Growth

namespace StateMachine

theorem pairKey_inj {s s' : StateId} {e e' : EventId} :
    pairKey s e = pairKey s' e' ↔ s = s' ∧ e = e' := by
  constructor
  · intro h
    have he := e.index_lt
    have he' := e'.index_lt
    unfold pairKey at h
    exact ⟨Number.index_inj.mp (by omega), Number.index_inj.mp (by omega)⟩
  · rintro ⟨rfl, rfl⟩
    rfl

namespace Description
variable {η : Type} {ds : Description η} {d : Line η}

/-- No line after a position is earlier than it. -/
theorem earlierRules_append (h : (ds ++ [d]).Unstopped) (s : StateId) (e : EventId) {i : Nat}
    (hi : i ≤ ds.length) : (ds ++ [d]).earlierRules s e i = ds.earlierRules s e i := by
  unfold earlierRules
  rw [rules_append h, List.filter_append]
  have hnew : ∀ r ∈ (d.rule? ds.length).toList, ¬ r.position < i := by
    intro r hr
    rw [rule?_position (Option.mem_toList.mp hr)]
    omega
  have hnone : (d.rule? ds.length).toList.filter (fun r =>
      r.position < i && r.event == e && (ds ++ [d]).contextAt r.position == some s) = [] := by
    apply List.filter_eq_nil_iff.mpr
    intro r hr
    simp [hnew r hr]
  rw [hnone, List.append_nil]
  apply List.filter_congr
  intro r hr
  rw [contextAt_append_of_mem h hr]

/-- The closest of the transitions of a pair is the one that stands for it. -/
theorem earlierRules_getLast? (h : ds.Unstopped) (s : StateId) (e : EventId) :
    (ds.earlierRules s e ds.length).getLast? = ds.rule? s e := by
  unfold earlierRules rule?
  rw [← List.head?_reverse, ← List.filter_reverse, List.head?_filter]
  apply List.find?_congr
  intro r hr
  simp [position_lt_length h (List.mem_reverse.mp hr)]

theorem repeatViolation?_append (h : (ds ++ [d]).Unstopped) {r : Rule η}
    (hr : r.position ≤ ds.length) :
    (ds ++ [d]).repeatViolation? r = ds.repeatViolation? r := by
  simp only [repeatViolation?, contextAt_append h hr, earlierRules_append h _ _ hr]

theorem repeatViolations_append (h : (ds ++ [d]).Unstopped) :
    (ds ++ [d]).repeatViolations =
      ds.repeatViolations ++ ((d.rule? ds.length).bind ds.repeatViolation?).toList := by
  unfold repeatViolations
  rw [rules_append h, List.filterMap_append]
  congr 1
  · apply List.filterMap_congr
    intro r hr
    exact repeatViolation?_append h (Nat.le_of_lt (position_lt_length h.front hr))
  · cases hd : d.rule? ds.length with
    | none => rfl
    | some r =>
      have hr := repeatViolation?_append h (Nat.le_of_eq (rule?_position hd))
      cases he : ds.repeatViolation? r <;> simp [hr, he]

end Description

namespace Repetitions
variable {η : Type} {reps : Repetitions} {ds : Description η} {d : Line η}

/-- The latest position of a pair is that of the transition that stands for it so far. -/
structure Knows (reps : Repetitions) (ds : Description η) : Prop where
  latest : ∀ (s : StateId) (e : EventId), e.isReserved = false →
    reps.latest[pairKey s e]? = (ds.rule? s e).map (·.position)
  problems : reps.problems.toList = ds.repeatViolations

theorem Knows.nil : Knows {} ([] : Description η) := by
  refine ⟨?_, rfl⟩
  intro s e _
  rfl

theorem read_latest {r : Declared} {s : StateId} {e : EventId} (he : e.isReserved = false) :
    (reps.read r).latest[pairKey s e]? =
      if r.event = e ∧ r.source = some s then some r.position
      else reps.latest[pairKey s e]? := by
  obtain ⟨position, source, event, target⟩ := r
  cases source with
  | none => simp [read]
  | some s' =>
    simp only [read]
    by_cases hr : event.isReserved
    · have hne : event ≠ e := by
        rintro rfl
        rw [he] at hr
        cases hr
      simp [hr, hne]
    · have hkey : compare (pairKey s' event) (pairKey s e) = .eq ↔ event = e ∧ s' = s := by
        rw [Nat.compare_eq_eq, pairKey_inj, and_comm]
      rw [if_neg hr]
      cases reps.latest[pairKey s' event]? <;>
        simp [Std.TreeMap.getElem?_insert, hkey]

theorem read_problems {r : Rule η} (k : Knows reps ds) (h : ds.Unstopped)
    (hr : r.position = ds.length) :
    (reps.read ⟨r.position, ds.contextAt ds.length, r.event, r.target⟩).problems.toList =
      reps.problems.toList ++ (ds.repeatViolation? r).toList := by
  unfold read Description.repeatViolation?
  rw [hr]
  cases ds.contextAt ds.length with
  | none => simp
  | some s =>
    cases he : r.event.isReserved with
    | true => simp
    | false =>
      simp only [Description.earlierRules_getLast? h, k.latest s r.event he]
      cases ds.rule? s r.event <;> simp

theorem Knows.read {r : Rule η} (k : Knows reps ds) (h : (ds ++ [d]).Unstopped)
    (hd : d.rule? ds.length = some r) :
    Knows (reps.read ⟨r.position, ds.contextAt ds.length, r.event, r.target⟩) (ds ++ [d]) := by
  refine ⟨?_, ?_⟩
  · intro s e he
    rw [read_latest he, k.latest s e he, Description.rule?_append h, hd]
    simp only [apply_ite (Option.map _), Option.map_some]
  · rw [read_problems k h.front (Description.rule?_position hd), k.problems,
      Description.repeatViolations_append h, hd, Option.bind_some]

theorem Knows.skip (k : Knows reps ds) (h : (ds ++ [d]).Unstopped)
    (hd : d.rule? ds.length = none) : Knows reps (ds ++ [d]) := by
  refine ⟨?_, ?_⟩
  · intro s e he
    rw [k.latest s e he, Description.rule?_append h, hd]
  · rw [k.problems, Description.repeatViolations_append h, hd]
    simp

theorem declared_knows (h : ds.Unstopped) : Knows (ds.declared.foldl Repetitions.read {}) ds := by
  induction ds using List.reverseRecOn with
  | nil => exact Knows.nil
  | append_singleton ds d ih =>
    have k := ih h.front
    rw [Description.declared_append h]
    cases hd : d.rule? ds.length with
    | none => simpa using k.skip h hd
    | some r => simpa using k.read h hd

end Repetitions
end StateMachine

import Mathlib.Data.List.Find
import Mathlib.Data.List.Induction
import Mathlib.Data.List.TakeWhile
import StateMachine.Scan
import StateMachine.Violations

namespace StateMachine

namespace Description
variable {η : Type} {ds : Description η} {d : Line η}

/-- All lines are active. -/
def Unstopped (ds : Description η) : Prop := ∀ d ∈ ds, d.isStop = false

theorem active_unstopped (ds : Description η) : ds.active.Unstopped := by
  intro d hd
  have hall := List.all_takeWhile (p := fun d : Line η => !d.isStop) (l := ds)
  simpa using List.all_eq_true.mp hall d hd

theorem Unstopped.active_eq (h : ds.Unstopped) : ds.active = ds := by
  apply List.takeWhile_eq_self_iff.mpr
  intro d hd
  simp [h d hd]

theorem Unstopped.front (h : (ds ++ [d]).Unstopped) : ds.Unstopped :=
  fun c hc => h c (List.mem_append_left _ hc)

@[simp] theorem active_active (ds : Description η) : ds.active.active = ds.active :=
  ds.active_unstopped.active_eq

@[simp] theorem contextAt_active (i : Nat) : ds.active.contextAt i = ds.contextAt i := by
  simp only [contextAt, active_active]

@[simp] theorem rules_active : ds.active.rules = ds.rules := by
  simp only [rules, active_active]

@[simp] theorem rule?_active (s : StateId) (e : EventId) : ds.active.rule? s e = ds.rule? s e := by
  simp only [rule?, rules_active, contextAt_active]

@[simp] theorem entryHandler?_active (s : StateId) :
    ds.active.entryHandler? s = ds.entryHandler? s := by
  simp only [entryHandler?, active_active]

@[simp] theorem label?_active {space : Space} (n : Number space) :
    ds.active.label? n = ds.label? n := by
  simp only [label?, active_active]

@[simp] theorem labelsBefore_active (e : EventId) (i : Nat) :
    ds.active.labelsBefore e i = ds.labelsBefore e i := by
  simp only [labelsBefore, active_active]

@[simp] theorem topState_active : ds.active.topState = ds.topState := by
  simp only [topState, active_active]

@[simp] theorem topEvent_active : ds.active.topEvent = ds.topEvent := by
  simp only [topEvent, active_active]

theorem take_active_length (ds : Description η) : ds.take ds.active.length = ds.active :=
  (List.prefix_iff_eq_take.mp (List.takeWhile_prefix _)).symm

theorem contextAt_append (h : (ds ++ [d]).Unstopped) {i : Nat} (hi : i ≤ ds.length) :
    (ds ++ [d]).contextAt i = ds.contextAt i := by
  simp only [contextAt, h.active_eq, h.front.active_eq, List.take_append_of_le_length hi]

/-- A line that selects a state decides the context after it, number 0 included. -/
theorem contextAt_append_length (h : (ds ++ [d]).Unstopped) :
    (ds ++ [d]).contextAt (ds.length + 1) =
      match d.selected? with
      | some s => if s.isReserved then none else some s
      | none => ds.contextAt ds.length := by
  have hlen : (ds ++ [d]).take (ds.length + 1) = ds ++ [d] :=
    List.take_of_length_le (by simp)
  simp only [contextAt, h.active_eq, h.front.active_eq, hlen, List.take_length,
    List.reverse_append, List.reverse_singleton, List.singleton_append, List.findSome?_cons]
  cases d.selected? with
  | none => rfl
  | some s => cases hs : s.isReserved <;> simp [Option.filter, hs]

theorem rules_append (h : (ds ++ [d]).Unstopped) :
    (ds ++ [d]).rules = ds.rules ++ (d.rule? ds.length).toList := by
  simp only [rules, h.active_eq, h.front.active_eq, List.zipIdx_append, List.filterMap_append]
  cases hd : d.rule? ds.length <;> simp [hd]

theorem rule?_position {i : Nat} {r : Rule η} (h : d.rule? i = some r) : r.position = i := by
  cases d <;> simp only [Line.rule?, Option.some.injEq, reduceCtorEq] at h
  rw [← h]

theorem position_lt_length (h : ds.Unstopped) {r : Rule η} (hr : r ∈ ds.rules) :
    r.position < ds.length := by
  rw [rules, h.active_eq] at hr
  obtain ⟨⟨d, i⟩, hd, he⟩ := List.mem_filterMap.mp hr
  rw [rule?_position he]
  simpa using List.snd_lt_of_mem_zipIdx hd

theorem mem_rules_iff {r : Rule η} :
    r ∈ ds.rules ↔ ds.active[r.position]? = some (.next r.event r.target r.handler) := by
  rw [rules, List.mem_filterMap]
  constructor
  · rintro ⟨⟨d, i⟩, hd, he⟩
    rw [rule?_position he, List.mk_mem_zipIdx_iff_getElem?.mp hd]
    cases d <;> simp only [Line.rule?, Option.some.injEq, reduceCtorEq] at he
    rw [← he]
  · intro hr
    exact ⟨(_, r.position), List.mk_mem_zipIdx_iff_getElem?.mpr hr, rfl⟩

theorem Unstopped.rules_pairwise (h : ds.Unstopped) :
    ds.rules.Pairwise fun r r' => r.position < r'.position := by
  induction ds using List.reverseRecOn with
  | nil => exact List.Pairwise.nil
  | append_singleton ds d ih =>
    rw [rules_append h, List.pairwise_append]
    refine ⟨ih h.front, ?_, ?_⟩
    · cases d.rule? ds.length <;> simp
    · intro r hr r' hr'
      rw [rule?_position (Option.mem_toList.mp hr')]
      exact position_lt_length h.front hr

theorem rules_pairwise (ds : Description η) :
    ds.rules.Pairwise fun r r' => r.position < r'.position := by
  rw [← rules_active]
  exact ds.active_unstopped.rules_pairwise

/-- The transitions that were there keep their contexts. -/
theorem contextAt_append_of_mem (h : (ds ++ [d]).Unstopped) {r : Rule η} (hr : r ∈ ds.rules) :
    (ds ++ [d]).contextAt r.position = ds.contextAt r.position :=
  contextAt_append h (Nat.le_of_lt (position_lt_length h.front hr))

/-- The transitions with their contexts, as the first pass keeps them. -/
def declared (ds : Description η) : List Declared :=
  ds.rules.map fun r => ⟨r.position, ds.contextAt r.position, r.event, r.target⟩

theorem declared_append (h : (ds ++ [d]).Unstopped) :
    (ds ++ [d]).declared = ds.declared ++ (d.rule? ds.length).toList.map fun r =>
      ⟨r.position, ds.contextAt ds.length, r.event, r.target⟩ := by
  rw [declared, rules_append h, List.map_append]
  congr 1
  · apply List.map_congr_left
    intro r hr
    rw [contextAt_append_of_mem h hr]
  · apply List.map_congr_left
    intro r hr
    rw [rule?_position (Option.mem_toList.mp hr), contextAt_append h (Nat.le_refl _)]

/-- The last line is the transition of its pair, if it is a transition. -/
theorem rule?_append (h : (ds ++ [d]).Unstopped) (s : StateId) (e : EventId) :
    (ds ++ [d]).rule? s e =
      match d.rule? ds.length with
      | some r =>
        if r.event = e ∧ ds.contextAt ds.length = some s then some r else ds.rule? s e
      | none => ds.rule? s e := by
  have hold : ds.rules.reverse.find? (fun r =>
      r.event == e && (ds ++ [d]).contextAt r.position == some s) = ds.rule? s e := by
    apply List.find?_congr
    intro r hr
    rw [contextAt_append_of_mem h (List.mem_reverse.mp hr)]
  rw [rule?, rules_append h, List.reverse_append, List.find?_append, hold]
  cases hd : d.rule? ds.length with
  | none => rfl
  | some r =>
    have hr : (ds ++ [d]).contextAt r.position = ds.contextAt ds.length := by
      rw [rule?_position hd, contextAt_append h (Nat.le_refl _)]
    by_cases hp : r.event = e ∧ ds.contextAt ds.length = some s
    · simp [hr, hp]
    · rw [not_and_or] at hp
      rcases hp with he | hs
      · simp [he]
      · simp [hr, hs]

theorem entryHandler?_append (h : (ds ++ [d]).Unstopped) (s : StateId) :
    (ds ++ [d]).entryHandler? s =
      match d with
      | .onEntry s' handler => if s' = s then some handler else ds.entryHandler? s
      | _ => ds.entryHandler? s := by
  simp only [entryHandler?, h.active_eq, h.front.active_eq, List.reverse_append,
    List.reverse_singleton, List.singleton_append, List.findSome?_cons]
  cases d with
  | onEntry s' handler => by_cases hs : s' = s <;> simp [hs]
  | _ => rfl

theorem label?_append {space : Space} (h : (ds ++ [d]).Unstopped) (n : Number space) :
    (ds ++ [d]).label? n =
      match d.label? space with
      | some (m, name) => if m = n then some name else ds.label? n
      | none => ds.label? n := by
  simp only [label?, h.active_eq, h.front.active_eq, List.reverse_append,
    List.reverse_singleton, List.singleton_append, List.filterMap_cons]
  cases d.label? space with
  | none => rfl
  | some labelled =>
    obtain ⟨m, name⟩ := labelled
    by_cases hm : m = n <;> simp [hm]

theorem topState_append (h : (ds ++ [d]).Unstopped) :
    (ds ++ [d]).topState =
      match d.selected? with
      | some s => max ds.topState s.index
      | none => ds.topState := by
  simp only [topState, h.active_eq, h.front.active_eq, List.filterMap_append, List.foldl_append]
  cases hd : d.selected? <;> simp [hd]

theorem topEvent_append (h : (ds ++ [d]).Unstopped) :
    (ds ++ [d]).topEvent =
      match d.label? .event with
      | some (e, _) => max ds.topEvent e.index
      | none => ds.topEvent := by
  simp only [topEvent, h.active_eq, h.front.active_eq, List.filterMap_append, List.foldl_append]
  cases hd : d.label? .event <;> simp [hd]

theorem foldl_max_le_iff {α : Type} (f : α → Nat) (xs : List α) (top n : Nat) :
    xs.foldl (fun top a => max top (f a)) top ≤ n ↔ top ≤ n ∧ ∀ a ∈ xs, f a ≤ n := by
  induction xs generalizing top with
  | nil => simp
  | cons a xs ih => rw [List.foldl_cons, ih, Nat.max_le, List.forall_mem_cons, and_assoc]

/-- The top is the least bound of what the active lines select. -/
theorem topState_le_iff {n : Nat} :
    ds.topState ≤ n ↔ ∀ d ∈ ds.active, ∀ s, d.selected? = some s → s.index ≤ n := by
  have hfold := foldl_max_le_iff (fun s : StateId => s.index)
    (ds.active.filterMap Line.selected?) 0 n
  refine hfold.trans ⟨?_, ?_⟩
  · rintro ⟨-, h⟩ d hd s hs
    exact h s (List.mem_filterMap.mpr ⟨d, hd, hs⟩)
  · intro h
    refine ⟨Nat.zero_le n, fun s hs => ?_⟩
    obtain ⟨d, hd, hselected⟩ := List.mem_filterMap.mp hs
    exact h d hd s hselected

theorem topEvent_le_iff {n : Nat} :
    ds.topEvent ≤ n ↔
      ∀ d ∈ ds.active, ∀ e name, d.label? .event = some (e, name) → e.index ≤ n := by
  have hfold := foldl_max_le_iff (fun labelled : EventId × String => labelled.1.index)
    (ds.active.filterMap (Line.label? .event)) 0 n
  refine hfold.trans ⟨?_, ?_⟩
  · rintro ⟨-, h⟩ d hd e name he
    exact h (e, name) (List.mem_filterMap.mpr ⟨d, hd, he⟩)
  · intro h
    refine ⟨Nat.zero_le n, fun (e, name) he => ?_⟩
    obtain ⟨d, hd, hlabel⟩ := List.mem_filterMap.mp he
    exact h d hd e name hlabel

theorem topState_lt (ds : Description η) : ds.topState < 65536 := by
  apply Nat.lt_succ_of_le
  apply topState_le_iff.mpr
  intro d _ s _
  exact Nat.le_of_lt_succ s.index_lt

theorem topEvent_lt (ds : Description η) : ds.topEvent < 65536 := by
  apply Nat.lt_succ_of_le
  apply topEvent_le_iff.mpr
  intro d _ e _ _
  exact Nat.le_of_lt_succ e.index_lt

theorem index_le_topState {s : StateId} (hd : d ∈ ds.active) (hs : d.selected? = some s) :
    s.index ≤ ds.topState :=
  topState_le_iff.mp (Nat.le_refl _) d hd s hs

theorem index_le_topEvent {e : EventId} {name : String} (hd : d ∈ ds.active)
    (he : d.label? .event = some (e, name)) : e.index ≤ ds.topEvent :=
  topEvent_le_iff.mp (Nat.le_refl _) d hd e name he

theorem labelsBefore_append (h : (ds ++ [d]).Unstopped) {i : Nat} (hi : i ≤ ds.length)
    (e : EventId) : (ds ++ [d]).labelsBefore e i = ds.labelsBefore e i := by
  simp only [labelsBefore, h.active_eq, h.front.active_eq, List.take_append_of_le_length hi]

theorem labelsBefore_append_length (h : (ds ++ [d]).Unstopped) (e : EventId) :
    (ds ++ [d]).labelsBefore e (ds.length + 1) =
      (ds.labelsBefore e ds.length || (d.label? .event).any fun (e', _) => e' == e) := by
  have hlen : (ds ++ [d]).take (ds.length + 1) = ds ++ [d] :=
    List.take_of_length_le (by simp)
  simp only [labelsBefore, h.active_eq, h.front.active_eq, hlen, List.take_length,
    List.any_append, List.any_cons, List.any_nil, Bool.or_false]

theorem labelsBefore_length (h : ds.Unstopped) (e : EventId) :
    ds.labelsBefore e ds.length = (ds.label? e).isSome := by
  induction ds using List.reverseRecOn with
  | nil => rfl
  | append_singleton ds d ih =>
    rw [List.length_append, List.length_singleton, labelsBefore_append_length h, ih h.front,
      label?_append h]
    cases d.label? .event with
    | none => simp
    | some labelled => by_cases he : labelled.1 = e <;> simp [he]

/-- What is wrong with a line never depends on the lines after it. -/
theorem lineViolations_append (h : (ds ++ [d]).Unstopped) {i : Nat} (hi : i ≤ ds.length)
    (c : Line η) : (ds ++ [d]).lineViolations c i = ds.lineViolations c i := by
  cases c <;> simp only [lineViolations, labelsBefore_append h hi, contextAt_append h hi]

end Description
end StateMachine

import Mathlib.Data.List.Basic
import Mathlib.Tactic.SplitIfs
import StateMachine.Proofs.Growth

namespace StateMachine

namespace Scan
variable {η : Type} {scan : Scan} {d : Line η} {i : Nat}

section Fields
attribute [local simp] read select labelState labelEvent useEvent requireContext declare report
  Line.selected? Line.label? Line.rule?

theorem read_context : (scan.read d i).context =
    match d.selected? with
    | some s => if s.isReserved then none else some s
    | none => scan.context := by
  cases d <;> simp
  all_goals split_ifs <;> rfl

/-- Number 0 does not raise the top, for it is the least. -/
theorem read_topState : (scan.read d i).topState =
    match d.selected? with
    | some s => max scan.topState s.index
    | none => scan.topState := by
  cases d <;> simp
  all_goals split_ifs with hs <;> simp_all [Number.isReserved_iff]

theorem read_topEvent : (scan.read d i).topEvent =
    match d.label? .event with
    | some (e, _) => max scan.topEvent e.index
    | none => scan.topEvent := by
  cases d <;> simp
  all_goals split_ifs with he <;> simp_all [Number.isReserved_iff]

/-- A label of number 0 is not kept. -/
theorem read_states {s : StateId} (hs : s.isReserved = false) :
    (scan.read d i).states[s.index]? =
      match d.label? .state with
      | some (s', name) => if s' = s then some (!name.isEmpty) else scan.states[s.index]?
      | none => scan.states[s.index]? := by
  cases d <;> simp
  case state s' name =>
    split_ifs <;> simp_all [Std.TreeMap.getElem?_insert, Number.index_inj]
  all_goals split_ifs <;> rfl

theorem read_events {e : EventId} (he : e.isReserved = false) :
    (scan.read d i).events[e.index]? =
      match d.label? .event with
      | some (e', name) => if e' = e then some (!name.isEmpty) else scan.events[e.index]?
      | none => scan.events[e.index]? := by
  cases d <;> simp
  case event e' name =>
    split_ifs <;> simp_all [Std.TreeMap.getElem?_insert, Number.index_inj]
  all_goals split_ifs <;> rfl

theorem read_declared : (scan.read d i).declared.toList = scan.declared.toList ++
    (d.rule? i).toList.map fun r => ⟨r.position, scan.context, r.event, r.target⟩ := by
  cases d <;> simp
  all_goals split_ifs <;> simp

end Fields

theorem useEvent_context {kind : String} {e : EventId} :
    (scan.useEvent i kind e).context = scan.context := by
  unfold useEvent
  split_ifs <;> rfl

theorem useEvent_problems {kind : String} {e : EventId} {declared : Bool}
    (h : e.isReserved = false → scan.events.contains e.index = declared) :
    (scan.useEvent i kind e).problems.toList = scan.problems.toList ++
      if e.isReserved then [.reservedNumber i kind]
      else if declared then [] else [.undeclaredEvent i e] := by
  unfold useEvent
  cases he : e.isReserved with
  | true => simp [report]
  | false =>
    rw [h he]
    cases declared <;> simp [report]

theorem requireContext_problems : (scan.requireContext i).problems.toList =
    scan.problems.toList ++ if scan.context.isSome then [] else [.noContext i] := by
  unfold requireContext
  split_ifs <;> simp [report]

/-- The reports on a line are those of the rules, if context and labels are known. -/
theorem read_problems {ds : Description η} (hd : d.isStop = false)
    (hcontext : scan.context = ds.contextAt i)
    (hevents : ∀ e : EventId, e.isReserved = false →
      scan.events.contains e.index = ds.labelsBefore e i) :
    (scan.read d i).problems.toList = scan.problems.toList ++ ds.lineViolations d i := by
  cases d with
  | stop => cases hd
  | state s name =>
    simp only [read, select, labelState, report, Description.lineViolations]
    split_ifs <;> simp
  | onEntry s _ | source s =>
    simp only [read, select, report, Description.lineViolations]
    split_ifs <;> simp
  | event e name =>
    simp only [read, labelEvent, report, Description.lineViolations]
    split_ifs <;> simp
  | next e target handler =>
    change ((scan.useEvent i _ e).requireContext i).problems.toList = _
    rw [requireContext_problems, useEvent_problems (hevents e), useEvent_context, hcontext,
      List.append_assoc]
    rfl

/-- What the scan of all lines of a description has to say of them. -/
structure Knows (scan : Scan) (ds : Description η) : Prop where
  context : scan.context = ds.contextAt ds.length
  topState : scan.topState = ds.topState
  topEvent : scan.topEvent = ds.topEvent
  states : ∀ s : StateId, s.isReserved = false →
    scan.states[s.index]? = (ds.label? s).map (!·.isEmpty)
  events : ∀ e : EventId, e.isReserved = false →
    scan.events[e.index]? = (ds.label? e).map (!·.isEmpty)
  declared : scan.declared.toList = ds.declared
  problems : scan.problems.toList =
    ds.zipIdx.flatMap fun (d, position) => ds.lineViolations d position

theorem Knows.nil : Knows {} ([] : Description η) := by
  refine ⟨rfl, rfl, rfl, ?_, ?_, rfl, rfl⟩
  · intro s _
    rfl
  · intro e _
    rfl

/-- Whether an event was labelled is what its entry in the map tells. -/
theorem Knows.labelsBefore {ds : Description η} (k : Knows scan ds) (h : ds.Unstopped)
    {e : EventId} (he : e.isReserved = false) :
    scan.events.contains e.index = ds.labelsBefore e ds.length := by
  rw [Std.TreeMap.contains_eq_isSome_getElem?, k.events e he, Option.isSome_map,
    Description.labelsBefore_length h]

theorem Knows.read {ds : Description η} (k : Knows scan ds) (h : (ds ++ [d]).Unstopped) :
    Knows (scan.read d ds.length) (ds ++ [d]) := by
  have hd : d.isStop = false := h d (by simp)
  refine ⟨?_, ?_, ?_, ?_, ?_, ?_, ?_⟩
  · rw [read_context, k.context, List.length_append, List.length_singleton]
    exact (Description.contextAt_append_length h).symm
  · rw [read_topState, k.topState]
    exact (Description.topState_append h).symm
  · rw [read_topEvent, k.topEvent]
    exact (Description.topEvent_append h).symm
  · intro s hs
    rw [read_states hs, k.states s hs, Description.label?_append h]
    cases d.label? .state with
    | none => rfl
    | some labelled => simp only [apply_ite (Option.map _), Option.map_some]
  · intro e he
    rw [read_events he, k.events e he, Description.label?_append h]
    cases d.label? .event with
    | none => rfl
    | some labelled => simp only [apply_ite (Option.map _), Option.map_some]
  · rw [read_declared, k.declared, k.context, Description.declared_append h]
  · rw [read_problems hd k.context (fun e he => k.labelsBefore h.front he), k.problems,
      List.zipIdx_append, List.flatMap_append]
    congr 1
    · apply List.flatMap_congr
      intro c hc
      have hi := List.snd_lt_of_mem_zipIdx hc
      exact (Description.lineViolations_append h (by omega) c.1).symm
    · simp [Description.lineViolations_append h (Nat.le_refl _)]

theorem ofLines_append (ds : Description η) (d : Line η) :
    ofLines (ds ++ [d]) = (ofLines ds).read d ds.length := by
  simp [ofLines, List.zipIdx_append, List.foldl_append]

theorem ofLines_knows {ds : Description η} (h : ds.Unstopped) : (ofLines ds).Knows ds := by
  induction ds using List.reverseRecOn with
  | nil => exact Knows.nil
  | append_singleton ds d ih =>
    rw [ofLines_append]
    exact (ih h.front).read h

end Scan
end StateMachine

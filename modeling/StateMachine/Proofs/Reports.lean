import StateMachine.Proofs.Extent
import StateMachine.Proofs.Repetitions
import StateMachine.Proofs.Scan

namespace StateMachine.Description
variable {η : Type} {ds : Description η} {scan : Scan}

theorem wrongTargets_eq (k : scan.Knows ds) : scan.wrongTargets = ds.targetViolations := by
  rw [Scan.wrongTargets, k.declared, declared, List.filterMap_map, targetViolations]
  simp only [Function.comp_def, k.topState]

theorem capacity_lt_word (width : CellWidth) : width.capacity < UInt64.size := by
  cases width <;> decide

theorem extent_states (k : scan.Knows ds) (n : Nat) :
    (scan.extent n).states.toNat = ds.topState + 1 := by
  have hlt := ds.topState_lt
  rw [Scan.extent, k.topState, UInt64.toNat_ofNat', Nat.mod_eq_of_lt (by omega)]

theorem extent_events (k : scan.Knows ds) (n : Nat) :
    (scan.extent n).events.toNat = ds.topEvent + 1 := by
  have hlt := ds.topEvent_lt
  rw [Scan.extent, k.topEvent, UInt64.toNat_ofNat', Nat.mod_eq_of_lt (by omega)]

/-- Numbers of 16 bits bound the product far below the largest word. -/
theorem cellCount_lt (ds : Description η) :
    (ds.topState + 1) * (ds.topEvent + 1) < UInt64.size := by
  have hs := ds.topState_lt
  have he := ds.topEvent_lt
  have hcells : (ds.topState + 1) * (ds.topEvent + 1) ≤ 65536 * 65536 :=
    Nat.mul_le_mul (by omega) (by omega)
  simp only [UInt64.size]
  omega

theorem overCapacity_eq (k : scan.Knows ds) (n : Nat) (width : CellWidth) :
    ((scan.extent n).overCapacity? width.capacity).toList = ds.cellViolations width.capacity := by
  have hword := ds.cellCount_lt
  rw [Extent.overCapacity?_eq _ (capacity_lt_word width), extent_states k, extent_events k,
    cellViolations, Nat.min_eq_left (by omega)]
  by_cases hfit : (ds.topState + 1) * (ds.topEvent + 1) ≤ width.capacity
  · rw [if_pos hfit, if_neg (by omega)]
    rfl
  · rw [if_neg hfit, if_pos (by omega)]
    rfl

theorem lateTransition_eq (k : scan.Knows ds) (capacity : Nat) :
    (scan.lateTransition? capacity).toList = ds.positionViolations capacity := by
  rw [Scan.lateTransition?, ← Array.getLast?_toList, k.declared, declared, List.getLast?_map,
    positionViolations]
  cases ds.rules.getLast? with
  | none => rfl
  | some last =>
    by_cases hfit : last.position < capacity
    · simp [hfit, Nat.not_le.mpr hfit]
    · simp [hfit, Nat.not_lt.mp hfit]

theorem unnamed_eq {space : Space} {named : Std.TreeMap Nat Bool} {top : Nat}
    (htop : top < 65536) (hnamed : ∀ n : Number space, n.isReserved = false →
      named[n.index]? = (ds.label? n).map (!·.isEmpty)) :
    (Scan.unnamed named top).map Number.ofNat = ds.unnamed space top := by
  rw [Scan.unnamed, unnamed, List.filter_map]
  congr 1
  apply List.filter_congr
  intro n hn
  rw [List.mem_range'_1] at hn
  have hindex : (Number.ofNat n : Number space).index = n := Number.index_ofNat (by omega)
  have hn' := hnamed _ (Number.isReserved_ofNat (n := n) (by omega) (by omega))
  rw [hindex] at hn'
  rw [Std.TreeMap.getD_eq_getD_getElem?, hn', Function.comp_apply]
  cases ds.label? (Number.ofNat n : Number space) with
  | none => rfl
  | some name =>
    rw [Bool.eq_iff_iff]
    simp [String.isEmpty_iff]

/-- A description says what its active lines say. -/
theorem problems_active (ds : Description η) (settings : Settings) :
    ds.active.problems settings = ds.problems settings := by
  simp only [problems, active_active]

theorem violations_active (ds : Description η) (settings : Settings) :
    ds.active.violations settings = ds.violations settings := by
  have hline : ds.active.lineViolations = ds.lineViolations := by
    funext d i
    cases d <;> simp only [lineViolations, labelsBefore_active, contextAt_active]
  have hrepeat : ds.active.repeatViolation? = ds.repeatViolation? := by
    funext r
    simp only [repeatViolation?, earlierRules, rules_active, contextAt_active]
  have hpolicy : ds.active.policyViolations = ds.policyViolations := by
    funext repeats
    cases repeats <;> simp only [policyViolations, repeatViolations, hrepeat, rules_active]
  simp only [violations, active_active, hline, targetViolations, cellViolations,
    positionViolations, unnamed, hpolicy, rules_active, label?_active, topState_active,
    topEvent_active]

theorem Unstopped.problems_eq (h : ds.Unstopped) (settings : Settings) :
    ds.problems settings = ds.violations settings := by
  have k := Scan.ofLines_knows h
  have hstates := congrArg (List.map Problem.unnamedState) (unnamed_eq ds.topState_lt k.states)
  have hevents := congrArg (List.map Problem.unnamedEvent) (unnamed_eq ds.topEvent_lt k.events)
  rw [List.map_map] at hstates hevents
  have hrepeats := (Repetitions.declared_knows h).problems
  rw [← k.declared, Array.foldl_toList] at hrepeats
  simp only [problems, violations, h.active_eq, k.problems, wrongTargets_eq k,
    overCapacity_eq k, lateTransition_eq k, k.topState, k.topEvent]
  rw [← hstates, ← hevents]
  cases settings.repeats with
  | reject =>
    rw [policyViolations, ← hrepeats]
    rfl
  | lastWins => rfl

theorem problems_eq_violations (ds : Description η) (settings : Settings) :
    ds.problems settings = ds.violations settings := by
  rw [← problems_active, ← violations_active]
  exact ds.active_unstopped.problems_eq settings

theorem states_extent (ds : Description η) : ds.extent.states.toNat = ds.topState + 1 := by
  rw [extent, extent_states (Scan.ofLines_knows ds.active_unstopped), topState_active]

theorem events_extent (ds : Description η) : ds.extent.events.toNat = ds.topEvent + 1 := by
  rw [extent, extent_events (Scan.ofLines_knows ds.active_unstopped), topEvent_active]

theorem lines_extent (ds : Description η) : ds.extent.lines = ds.active.length := rfl

theorem extent_eq (ds : Description η) : ds.extent =
    ⟨.ofNat (ds.topState + 1), .ofNat (ds.topEvent + 1), ds.active.length⟩ := by
  have k := Scan.ofLines_knows ds.active_unstopped
  rw [extent, Scan.extent, k.topState, k.topEvent, topState_active, topEvent_active]

/-- A check finds the violations of the rules, all of them and in the order of the rules, and
measures a description that has none. -/
theorem check_eq_violations (ds : Description η) (settings : Settings) :
    ds.check settings = match ds.violations settings with
      | [] => .ok ⟨.ofNat (ds.topState + 1), .ofNat (ds.topEvent + 1), ds.active.length⟩
      | problems => .error problems := by
  have hproblems := problems_eq_violations ds settings
  cases hv : ds.violations settings with
  | nil => simp only [check, hproblems, hv, extent_eq]
  | cons p ps => simp only [check, hproblems, hv]

end StateMachine.Description

import StateMachine.Proofs.Agreement
import StateMachine.Proofs.Problems

namespace StateMachine

namespace Description
variable {η : Type} {ds : Description η}

/-- Apart from those of the capacity, problems do not depend on the width. -/
theorem filter_violations (ds : Description η) (settings : Settings) :
    (ds.violations settings).filter (fun p => p.required?.isNone) =
      ds.textViolations ++ ds.nameViolations ++ ds.policyViolations settings.repeats := by
  have htext : ∀ p ∈ ds.textViolations, p.required?.isNone = true := by
    intro p hp
    rw [(plain_of_mem_textViolations hp).1]
    rfl
  have hnames : ∀ p ∈ ds.nameViolations, p.required?.isNone = true := by
    intro p hp
    rw [(plain_of_mem_nameViolations hp).1]
    rfl
  have hpolicy : ∀ p ∈ ds.policyViolations settings.repeats, p.required?.isNone = true := by
    intro p hp
    rw [(mem_policyViolations hp).1]
    rfl
  have hcapacity : ∀ p ∈ ds.cellViolations settings.width.capacity
      ++ ds.positionViolations settings.width.capacity, ¬ p.required?.isNone = true := by
    intro p hp
    have hsome := (mem_capacityViolations hp).1
    simpa using Option.isSome_iff_ne_none.mp hsome
  rw [violations_eq, List.filter_append, List.filter_append, List.filter_append,
    List.filter_eq_self.mpr htext, List.filter_eq_self.mpr hnames,
    List.filter_eq_self.mpr hpolicy, List.filter_eq_nil_iff.mpr hcapacity, List.append_nil]

theorem cellViolations_sublist {capacity capacity' : Nat} (h : capacity ≤ capacity') :
    ((ds.cellViolations capacity').filterMap Problem.required?).Sublist
      ((ds.cellViolations capacity).filterMap Problem.required?) := by
  unfold cellViolations
  by_cases hlarge : capacity' < (ds.topState + 1) * (ds.topEvent + 1)
  · simp only [if_pos hlarge, if_pos (Nat.lt_of_le_of_lt h hlarge)]
    exact List.Sublist.refl _
  · simp only [if_neg hlarge]
    exact List.nil_sublist _

theorem positionViolations_sublist {capacity capacity' : Nat} (h : capacity ≤ capacity') :
    ((ds.positionViolations capacity').filterMap Problem.required?).Sublist
      ((ds.positionViolations capacity).filterMap Problem.required?) := by
  unfold positionViolations
  cases ds.rules.getLast? with
  | none => exact List.Sublist.refl _
  | some last =>
    by_cases hlate : capacity' ≤ last.position
    · simp only [if_pos hlate, if_pos (Nat.le_trans h hlate)]
      exact List.Sublist.refl _
    · simp only [if_neg hlate]
      exact List.nil_sublist _

/-- More room never makes a lawful description unlawful. -/
theorem Lawful.widen {width width' : CellWidth} {repeats : RepeatPolicy}
    (h : ds.Lawful ⟨width, repeats⟩) (hle : width.capacity ≤ width'.capacity) :
    ds.Lawful ⟨width', repeats⟩ :=
  { h with
    cells := Nat.le_trans h.cells hle
    position := fun r hr => Nat.lt_of_lt_of_le (h.position r hr) hle }

end Description

theorem CellWidth.narrow_le_wide : CellWidth.narrow.capacity ≤ CellWidth.wide.capacity := by decide

namespace Blueprint
variable {η κ : Type}

/-- The width never changes meaning. Apart from the capacity the same problems are found, and what is
too large for wide cells is too large for narrow ones. So what fits narrow cells is built with wide
cells as well, and the two tables show the same but for the width. They have the same sessions with
all handlers that do not ask for it. -/
theorem widths_agree (b : Blueprint κ) (ds : Description η) (repeats : RepeatPolicy) :
    (ds.problems ⟨.narrow, repeats⟩).filter (fun p => p.required?.isNone) =
        (ds.problems ⟨.wide, repeats⟩).filter (fun p => p.required?.isNone) ∧
      ((ds.problems ⟨.wide, repeats⟩).filterMap Problem.required?).Sublist
        ((ds.problems ⟨.narrow, repeats⟩).filterMap Problem.required?) ∧
      ∀ t, ((b.withSettings ⟨.narrow, repeats⟩).build ds).1 = .ok t →
        ∃ t' summary, (b.withSettings ⟨.wide, repeats⟩).build ds =
            (.ok t', [.built b.name t.extent]) ∧
          t.Agrees View.unsized t' ∧ t.summary = .ok summary ∧ summary.cellWidth = .narrow ∧
          t'.summary = .ok { summary with cellWidth := .wide } := by
  simp only [Description.problems_eq_violations]
  refine ⟨?_, ?_, ?_⟩
  · rw [Description.filter_violations, Description.filter_violations]
  · rw [Description.filterMap_required, Description.filterMap_required]
    exact (Description.cellViolations_sublist CellWidth.narrow_le_wide).append
      (Description.positionViolations_sublist CellWidth.narrow_le_wide)
  · intro t h
    obtain ⟨hlawful, k, -, -⟩ := represents_of_build h
    have hwide : ds.Lawful (b.withSettings ⟨.wide, repeats⟩).settings :=
      Description.Lawful.widen hlawful CellWidth.narrow_le_wide
    obtain ⟨t', hbuild⟩ := build_of_lawful hwide
    have h' : ((b.withSettings ⟨.wide, repeats⟩).build ds).1 = .ok t' := congrArg Prod.fst hbuild
    obtain ⟨-, k', -, -⟩ := represents_of_build h'
    have hagrees : t.Agrees View.unsized t' :=
      agrees_of_build h h' rfl (.refl ds) (fun _ _ => rfl) rfl fun _ _ => rfl
    obtain ⟨-, hextent, hnarrow⟩ := measures_of_build h
    obtain ⟨-, -, hwidth⟩ := measures_of_build h'
    refine ⟨t', _, by rw [hextent]; exact hbuild, hagrees, k.summary_eq, hnarrow, ?_⟩
    rw [k'.summary_eq, hwidth, Table.stateNames, Table.eventNames, Table.stateLimit,
      Table.eventLimit, Table.pairs, Table.stateLimit, Table.eventLimit, ← hagrees.name,
      ← hagrees.extent, ← hagrees.states, ← hagrees.events]
    rfl

/-- With wide cells the turnstile leads to the same line. -/
theorem turnstile_widths : ∃ t t' : Table Unit Unit,
    (build ⟨"turnstile", ⟨.narrow, .lastWins⟩, none⟩ turnstile).1 = .ok t ∧
      (build ⟨"turnstile", ⟨.wide, .lastWins⟩, none⟩ turnstile).1 = .ok t' ∧
      t'.lookup ⟨1⟩ ⟨1⟩ = .ok (some ⟨⟨1⟩, ⟨1⟩, ⟨2⟩, true, 7⟩) := by
  obtain ⟨t, hbuilt, k, -⟩ := turnstile_built (none : Option Unit)
  obtain ⟨t', -, hbuild, hagrees, -⟩ :=
    (widths_agree (⟨"turnstile", {}, none⟩ : Blueprint Unit) turnstile .lastWins).2.2 t hbuilt
  refine ⟨t, t', hbuilt, congrArg Prod.fst hbuild, ?_⟩
  rw [← hagrees.lookup, k.lookup_eq (by rw [k.stateLimit]; decide) (by rw [k.eventLimit]; decide)]
  rfl

/-- The override of the turnstile keeps the number of cells that its table could have. It asks for the
width, and the two widths give two contexts. -/
theorem turnstile_shows_width : ∃ t t' : Table Unit Unit,
    (build ⟨"turnstile", ⟨.narrow, .lastWins⟩, none⟩ turnstile).1 = .ok t ∧
      (build ⟨"turnstile", ⟨.wide, .lastWins⟩, none⟩ turnstile).1 = .ok t' ∧
      let asking : Unit → Handler Nat Unit := fun _ view _ => .setContext view.width.capacity (.done ())
      let holdings : Holdings Nat := ⟨fun _ => ⟨1⟩, fun _ => 0⟩
      let acts : List (Act Nat Unit) := [.perform 0 0 (.call (.step ⟨1⟩))]
      ((t.equip asking none).responses 0 holdings acts).map (·.holdings.contexts 0) = [256] ∧
        ((t'.equip asking none).responses 0 holdings acts).map (·.holdings.contexts 0) = [65536] := by
  obtain ⟨t, hbuilt, -⟩ := turnstile_built (none : Option Unit)
  have hcheck : turnstile.check ⟨.wide, .lastWins⟩ = .ok ⟨3, 3, 8⟩ := by decide
  obtain ⟨t', hbuild, -⟩ := build_ok (b := (⟨"turnstile", ⟨.wide, .lastWins⟩, none⟩ : Blueprint Unit))
    hcheck
  have hbuilt' := congrArg Prod.fst hbuild
  refine ⟨t, t', hbuilt, hbuilt', ?_, ?_⟩
  · exact (contexts_step hbuilt _ _ 0 _ 0 0 ⟨1⟩).trans rfl
  · exact (contexts_step hbuilt' _ _ 0 _ 0 0 ⟨1⟩).trans rfl

end Blueprint
end StateMachine

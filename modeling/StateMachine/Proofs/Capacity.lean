import StateMachine.Proofs.Problems

namespace StateMachine

namespace Extent
variable {x : Extent} {width : CellWidth} {p : Problem}

theorem overCapacity?_eq_none_iff : x.overCapacity? width.capacity = none ↔
    x.states.toNat * x.events.toNat ≤ width.capacity := by
  rw [overCapacity?_eq x (Description.capacity_lt_word width)]
  split_ifs with hfit
  · exact iff_of_true rfl hfit
  · exact iff_of_false nofun hfit

theorem overCapacity?_eq_some_iff : x.overCapacity? width.capacity = some p ↔
    width.capacity < x.states.toNat * x.events.toNat ∧
      p = .overCapacity (min (x.states.toNat * x.events.toNat) (UInt64.size - 1)) width.capacity := by
  rw [overCapacity?_eq x (Description.capacity_lt_word width)]
  split_ifs with hfit
  · exact iff_of_false nofun fun h => Nat.not_lt.mpr hfit h.1
  · rw [Option.some.injEq, eq_comm, and_iff_right (Nat.not_le.mp hfit)]

example : overCapacity? ⟨4294967296, 4294967296, 0⟩ 256 =
    some (.overCapacity 18446744073709551615 256) := by decide

end Extent

namespace Description
variable {η : Type}

/-- The sizes of any description are small enough for their product to be a word. -/
theorem cells_extent (ds : Description η) : ds.extent.cells.map UInt64.toNat =
    some ((ds.topState + 1) * (ds.topEvent + 1)) := by
  rw [← states_extent, ← events_extent]
  cases hcells : ds.extent.cells with
  | some n => exact congrArg some (Extent.cells_toNat hcells)
  | none =>
    have hlarge := Extent.cells_eq_none.mp hcells
    rw [states_extent, events_extent] at hlarge
    exact absurd ds.cellCount_lt (Nat.not_lt.mpr hlarge)

theorem required_cellViolations (ds : Description η) (capacity : Nat) :
    (ds.cellViolations capacity).filterMap Problem.required? =
      if capacity < (ds.topState + 1) * (ds.topEvent + 1) then
        [(ds.topState + 1) * (ds.topEvent + 1)]
      else [] := by
  rw [cellViolations]
  split_ifs <;> rfl

/-- For any two words the check accepts exactly what fits, and reports the exact product of what does
not, cut to the largest word. The sizes of a description are at most 2^16, whatever its numbers are, so
nothing of it is ever cut: its cells are counted without loss, and the sizes that a check asks for are
that count, if it is too large, and after it what the last transition needs. -/
theorem capacity_exact (ds : Description η) (settings : Settings) :
    (∀ (x : Extent) (width : CellWidth),
        (x.overCapacity? width.capacity = none ↔
          x.states.toNat * x.events.toNat ≤ width.capacity) ∧
        ∀ p, x.overCapacity? width.capacity = some p ↔
          width.capacity < x.states.toNat * x.events.toNat ∧
            p = .overCapacity (min (x.states.toNat * x.events.toNat) (UInt64.size - 1))
              width.capacity) ∧
      (ds.extent.states.toNat = ds.topState + 1 ∧ ds.topState + 1 ≤ 65536) ∧
      (ds.extent.events.toNat = ds.topEvent + 1 ∧ ds.topEvent + 1 ≤ 65536) ∧
      ds.extent.cells.map UInt64.toNat = some ((ds.topState + 1) * (ds.topEvent + 1)) ∧
      (ds.problems settings).filterMap Problem.required? =
        (if settings.width.capacity < (ds.topState + 1) * (ds.topEvent + 1) then
          [(ds.topState + 1) * (ds.topEvent + 1)]
        else []) ++ (ds.positionViolations settings.width.capacity).filterMap Problem.required? := by
  refine ⟨fun x width => ⟨Extent.overCapacity?_eq_none_iff, fun p =>
    Extent.overCapacity?_eq_some_iff⟩, ⟨ds.states_extent, ds.topState_lt⟩,
    ⟨ds.events_extent, ds.topEvent_lt⟩, ds.cells_extent, ?_⟩
  rw [problems_eq_violations, filterMap_required, required_cellViolations]

end Description
end StateMachine

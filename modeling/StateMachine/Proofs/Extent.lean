import Mathlib.Tactic.SplitIfs
import StateMachine.Scan

namespace StateMachine.Extent

/-- The guard of the product is exact: it lets through what a word can hold and nothing else. -/
theorem product?_guard (a b : UInt64) :
    (b = 0 ∨ a ≤ UInt64.ofNat (UInt64.size - 1) / b) ↔ a.toNat * b.toNat < UInt64.size := by
  have hmax : (UInt64.ofNat (UInt64.size - 1)).toNat = UInt64.size - 1 := by decide
  by_cases hb : b = 0
  · subst hb
    simp [UInt64.size]
  · have hpos : 0 < b.toNat := by
      apply Nat.pos_of_ne_zero
      intro h
      exact hb (UInt64.toNat_inj.mp (by simpa using h))
    rw [or_iff_right hb, UInt64.le_iff_toNat_le, UInt64.toNat_div, hmax,
      Nat.le_div_iff_mul_le hpos]
    have : 0 < UInt64.size := by decide
    omega

theorem product?_eq (a b : UInt64) :
    product? a b = if a.toNat * b.toNat < UInt64.size then some (a * b) else none := by
  unfold product?
  simp only [product?_guard]

theorem cells_toNat {x : Extent} {n : UInt64} (h : x.cells = some n) :
    n.toNat = x.states.toNat * x.events.toNat := by
  rw [cells, product?_eq] at h
  split_ifs at h with hlt
  rw [← Option.some.inj h, UInt64.toNat_mul, Nat.mod_eq_of_lt hlt]

theorem cells_eq_none {x : Extent} :
    x.cells = none ↔ UInt64.size ≤ x.states.toNat * x.events.toNat := by
  rw [cells, product?_eq]
  split_ifs with hlt
  · simp only [false_iff]
    omega
  · simp only [true_iff]
    omega

/-- The report is that of the exact product, cut to the largest word. -/
theorem overCapacity?_eq (x : Extent) {capacity : Nat} (h : capacity < UInt64.size) :
    x.overCapacity? capacity =
      if x.states.toNat * x.events.toNat ≤ capacity then none
      else some (.overCapacity (min (x.states.toNat * x.events.toNat) (UInt64.size - 1))
        capacity) := by
  unfold overCapacity?
  cases hc : x.cells with
  | none =>
    have := cells_eq_none.mp hc
    rw [if_neg (by omega), Nat.min_eq_right (by omega)]
  | some n =>
    have hlt := n.toNat_lt
    dsimp only
    rw [cells_toNat hc] at hlt ⊢
    rw [Nat.min_eq_left (by simp only [UInt64.size]; omega)]

end StateMachine.Extent

import StateMachine.Cells

namespace StateMachine

theorem rowMajor_lt {m n s e : Nat} (hs : s < m) (he : e < n) : s * n + e < m * n := by
  have := Nat.mul_le_mul_right n hs
  rw [Nat.succ_mul] at this
  omega

/-- Rows of equal length do not overlap. -/
theorem rowMajor_inj {n s s' e e' : Nat} (he : e < n) (he' : e' < n) :
    s * n + e = s' * n + e' ↔ s = s' ∧ e = e' := by
  constructor
  · intro h
    rcases Nat.lt_trichotomy s s' with hlt | rfl | hlt
    · have := rowMajor_lt hlt he
      omega
    · exact ⟨rfl, by omega⟩
    · have := rowMajor_lt hlt he'
      omega
  · rintro ⟨rfl, rfl⟩
    rfl

namespace Cells

theorem width_empty (width : CellWidth) (n : Nat) : (empty width n).width = width := by
  cases width <;> rfl

theorem size_empty (width : CellWidth) (n : Nat) : (empty width n).size = n := by
  cases width <;> exact Array.size_replicate

theorem get_empty (width : CellWidth) {n c : Nat} (h : c < n) :
    (empty width n).get c = .ok none := by
  cases width <;> simp [empty, get, raw?, h]

/-- A position that the width admits is stored without loss. -/
theorem set_raw? {b : Cells} {cell position : Nat} (h₀ : position ≠ 0)
    (h : position < b.width.capacity) (hc : cell < b.size) :
    ∃ b', b.set cell position = .ok b' ∧ b'.width = b.width ∧ b'.size = b.size ∧
      ∀ c, b'.raw? c = if c = cell then some position else b.raw? c := by
  have hrange : ¬ (position = 0 ∨ b.width.capacity ≤ position) := by omega
  unfold set
  rw [if_neg hrange, if_neg (Nat.not_le.mpr hc)]
  cases b
  all_goals
    refine ⟨_, rfl, rfl, Array.size_setIfInBounds, ?_⟩
    intro c
    simp only [width, CellWidth.capacity, size] at h hc
    by_cases he : c = cell
    · subst he
      simp [raw?, hc, Nat.mod_eq_of_lt h]
    · simp [raw?, he, Ne.symm he]

/-- The last position that was stored in a cell is what it gives. -/
theorem set_get {b : Cells} {cell position : Nat} (h₀ : position ≠ 0)
    (h : position < b.width.capacity) (hc : cell < b.size) :
    ∃ b', b.set cell position = .ok b' ∧ b'.width = b.width ∧ b'.size = b.size ∧
      ∀ c, b'.get c = if c = cell then .ok (some position) else b.get c := by
  obtain ⟨b', hset, hwidth, hsize, hraw⟩ := set_raw? h₀ h hc
  refine ⟨b', hset, hwidth, hsize, ?_⟩
  intro c
  unfold get
  rw [hraw c, hsize]
  by_cases he : c = cell
  · obtain ⟨n, rfl⟩ := Nat.exists_eq_succ_of_ne_zero h₀
    rw [if_pos he, if_pos he]
  · rw [if_neg he, if_neg he]

/-- Where the cells are laid out in rows, a position that is stored for a pair shows at that pair
alone. -/
theorem set_pair {b : Cells} {rows columns s e position : Nat} (hsize : b.size = rows * columns)
    (hs : s < rows) (he : e < columns) (h₀ : position ≠ 0) (h : position < b.width.capacity) :
    ∃ b', b.set (s * columns + e) position = .ok b' ∧ b'.width = b.width ∧ b'.size = b.size ∧
      ∀ s' e', e' < columns → b'.get (s' * columns + e') =
        if s' = s ∧ e' = e then .ok (some position) else b.get (s' * columns + e') := by
  obtain ⟨b', hset, hwidth, hlength, hget⟩ := set_get h₀ h (hsize ▸ rowMajor_lt hs he)
  refine ⟨b', hset, hwidth, hlength, ?_⟩
  intro s' e' he'
  rw [hget]
  simp only [rowMajor_inj he' he]

end Cells
end StateMachine

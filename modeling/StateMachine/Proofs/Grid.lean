import Mathlib.Data.List.Induction
import StateMachine.Proofs.Cells

namespace StateMachine

/-- A position that is to be stored for a pair. -/
structure Placement where
  row : Nat
  column : Nat
  position : Nat

namespace Placement

/-- There is a cell for the pair, and a cell of that width has room for the position. -/
def Fits (p : Placement) (rows columns : Nat) (width : CellWidth) : Prop :=
  p.row < rows ∧ p.column < columns ∧ p.position ≠ 0 ∧ p.position < width.capacity

instance (p : Placement) (rows columns : Nat) (width : CellWidth) :
    Decidable (p.Fits rows columns width) :=
  inferInstanceAs (Decidable (_ ∧ _ ∧ _ ∧ _))

/-- The position that was stored last for a pair. -/
def latest? (ps : List Placement) (row column : Nat) : Option Nat :=
  (ps.reverse.find? fun p => p.row == row && p.column == column).map position

theorem latest?_append (ps : List Placement) (p : Placement) (row column : Nat) :
    latest? (ps ++ [p]) row column =
      if row = p.row ∧ column = p.column then some p.position else latest? ps row column := by
  rw [latest?, List.reverse_append, List.reverse_singleton, List.singleton_append,
    List.find?_cons]
  by_cases hp : row = p.row ∧ column = p.column
  · obtain ⟨rfl, rfl⟩ := hp
    simp
  · have hmiss : (p.row == row && p.column == column) = false := by
      rw [Bool.eq_false_iff]
      intro hsame
      obtain ⟨hrow, hcolumn⟩ := Bool.and_eq_true_iff.mp hsame
      exact hp ⟨(beq_iff_eq.mp hrow).symm, (beq_iff_eq.mp hcolumn).symm⟩
    rw [hmiss, if_neg hp]
    rfl

end Placement

namespace Cells
variable {b b' : Cells} {rows columns : Nat} {width width' : CellWidth} {ps : List Placement}
  {p : Placement}

/-- Stores position after position in rows of a given length. -/
def store (b : Cells) (columns : Nat) (ps : List Placement) : Except Defect Cells :=
  ps.foldlM (fun b p => b.set (p.row * columns + p.column) p.position) b

/-- A grid has a cell for every pair, and in it what was stored last for the pair. -/
structure Holds (b : Cells) (rows columns : Nat) (width : CellWidth) (ps : List Placement) :
    Prop where
  width_eq : b.width = width
  size_eq : b.size = rows * columns
  get_eq : ∀ row < rows, ∀ column < columns,
    b.get (row * columns + column) = .ok (Placement.latest? ps row column)

theorem holds_empty : (empty width (rows * columns)).Holds rows columns width [] :=
  ⟨width_empty _ _, size_empty _ _, fun _ hrow _ hcolumn => get_empty _ (rowMajor_lt hrow hcolumn)⟩

theorem Holds.set (k : b.Holds rows columns width ps) (hp : p.Fits rows columns width) :
    ∃ b', b.set (p.row * columns + p.column) p.position = .ok b' ∧
      b'.Holds rows columns width (ps ++ [p]) := by
  obtain ⟨hrow, hcolumn, hzero, hcapacity⟩ := hp
  obtain ⟨b', hset, hwidth, hsize, hget⟩ :=
    set_pair k.size_eq hrow hcolumn hzero (k.width_eq ▸ hcapacity)
  refine ⟨b', hset, hwidth.trans k.width_eq, hsize.trans k.size_eq, fun row hr column hc => ?_⟩
  rw [hget row column hc, k.get_eq row hr column hc, Placement.latest?_append]
  split <;> rfl

theorem store_append (b : Cells) (columns : Nat) (ps : List Placement) (p : Placement) :
    b.store columns (ps ++ [p]) =
      b.store columns ps >>= fun b => b.set (p.row * columns + p.column) p.position := by
  simp only [store, List.foldlM_append, List.foldlM_cons, List.foldlM_nil, bind_pure]

/-- Placements that fit are stored one and all. -/
theorem store_holds (h : ∀ p ∈ ps, p.Fits rows columns width) :
    ∃ b, (empty width (rows * columns)).store columns ps = .ok b ∧
      b.Holds rows columns width ps := by
  induction ps using List.reverseRecOn with
  | nil => exact ⟨_, rfl, holds_empty⟩
  | append_singleton ps p ih =>
    obtain ⟨b, hstore, k⟩ := ih fun p hp => h p (List.mem_append_left _ hp)
    obtain ⟨b', hset, k'⟩ := k.set (h p (by simp))
    refine ⟨b', ?_, k'⟩
    rw [store_append, hstore]
    exact hset

theorem get_outside {cell : Nat} (h : b.size ≤ cell) : b.get cell = .error (.bounds cell b.size) := by
  have hraw : b.raw? cell = none := by
    cases b <;> exact congrArg (Option.map _) (Array.getElem?_eq_none h)
  rw [get, hraw]

/-- What a grid gives at any cell, also at one that it has not, depends on the placements alone. -/
theorem Holds.agree (k : b.Holds rows columns width ps) (k' : b'.Holds rows columns width' ps)
    (cell : Nat) : b.get cell = b'.get cell := by
  by_cases hcell : cell < rows * columns
  · have hpos : 0 < columns := Nat.pos_of_lt_mul_left hcell
    have hrow : cell / columns < rows := (Nat.div_lt_iff_lt_mul hpos).mpr hcell
    have hcolumn : cell % columns < columns := Nat.mod_lt _ hpos
    have hpair : cell / columns * columns + cell % columns = cell := Nat.div_add_mod' cell columns
    rw [← hpair, k.get_eq _ hrow _ hcolumn, k'.get_eq _ hrow _ hcolumn]
  · rw [get_outside (k.size_eq ▸ Nat.not_lt.mp hcell),
      get_outside (k'.size_eq ▸ Nat.not_lt.mp hcell), k.size_eq, k'.size_eq]

/-- Storing never fails, and afterwards every pair has the position that was stored last for it, or
none if there was none. Every pair has a cell of its own. Where the positions suit another width too,
cells of that width give the same everywhere. -/
theorem store_exact (hsize : rows * columns ≤ width.capacity)
    (h : ∀ p ∈ ps, p.Fits rows columns width) :
    (∃ b, (empty width (rows * columns)).store columns ps = .ok b ∧
        b.Holds rows columns width ps ∧
        ∀ width', (∀ p ∈ ps, p.position < width'.capacity) →
          ∃ b', (empty width' (rows * columns)).store columns ps = .ok b' ∧
            b'.width = width' ∧ ∀ cell, b'.get cell = b.get cell) ∧
      ∀ row < rows, ∀ column < columns,
        row * columns + column < rows * columns ∧ row * columns + column < width.capacity ∧
          ∀ row' < rows, ∀ column' < columns,
            row * columns + column = row' * columns + column' → row = row' ∧ column = column' := by
  obtain ⟨b, hstore, k⟩ := store_holds h
  refine ⟨⟨b, hstore, k, fun width' hwidth' => ?_⟩, fun row hrow column hcolumn => ?_⟩
  · have h' : ∀ p ∈ ps, p.Fits rows columns width' := by
      intro p hp
      obtain ⟨hrow, hcolumn, hzero, -⟩ := h p hp
      exact ⟨hrow, hcolumn, hzero, hwidth' p hp⟩
    obtain ⟨b', hstore', k'⟩ := store_holds h'
    exact ⟨b', hstore', k'.width_eq, k'.agree k⟩
  · have hlt := rowMajor_lt hrow hcolumn
    refine ⟨hlt, Nat.lt_of_lt_of_le hlt hsize, fun row' _ column' hcolumn' hcell => ?_⟩
    exact (rowMajor_inj hcolumn hcolumn').mp hcell

/-- The pair of row 1 and column 2 is used twice, and 255 is the largest position of a byte. -/
theorem store_twice : ∃ b b',
    (empty .narrow 6).store 3 [⟨1, 2, 9⟩, ⟨0, 1, 255⟩, ⟨1, 2, 4⟩] = .ok b ∧
      (empty .wide 6).store 3 [⟨1, 2, 9⟩, ⟨0, 1, 255⟩, ⟨1, 2, 4⟩] = .ok b' ∧
      b.get 5 = .ok (some 4) ∧ b.get 1 = .ok (some 255) ∧ b.get 2 = .ok none ∧
      b'.get 5 = .ok (some 4) := by
  obtain ⟨⟨b, hstore, k, hwidths⟩, -⟩ := @store_exact 2 3 .narrow
    [⟨1, 2, 9⟩, ⟨0, 1, 255⟩, ⟨1, 2, 4⟩] (by decide) (by decide)
  obtain ⟨b', hstore', -, hget⟩ := hwidths .wide (by decide)
  have hlast : b.get 5 = .ok (some 4) := k.get_eq 1 (by decide) 2 (by decide)
  exact ⟨b, b', hstore, hstore', hlast, k.get_eq 0 (by decide) 1 (by decide),
    k.get_eq 0 (by decide) 2 (by decide), (hget 5).trans hlast⟩

end Cells
end StateMachine

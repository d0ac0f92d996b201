import StateMachine.Chart
import StateMachine.Proofs.Policies

namespace StateMachine.Description

variable {η : Type} {ds ds' : Description η} {s : StateId} {e : EventId} {a : StateId × Option η}

/-- What each transition is declared for, and what it does. -/
def bindings (ds : Description η) : List ((Option StateId × EventId) × StateId × Option η) :=
  ds.rules.map fun r => ((ds.contextAt r.position, r.event), r.action)

theorem unstopped_append_iff : (ds ++ ds').Unstopped ↔ ds.Unstopped ∧ ds'.Unstopped :=
  List.forall_mem_append

theorem block_unstopped (s : StateId) (name : String) (row : List (EventId × StateId)) :
    Unstopped (block s name row : Description η) := by
  refine List.forall_mem_cons.mpr ⟨rfl, ?_⟩
  intro d hd
  obtain ⟨move, -, rfl⟩ := List.mem_map.mp hd
  rfl

theorem bindings_append {d : Line η} (h : (ds ++ [d]).Unstopped) :
    (ds ++ [d]).bindings = ds.bindings ++ (d.rule? ds.length).toList.map fun r =>
      ((ds.contextAt ds.length, r.event), r.action) := by
  rw [bindings, rules_append h, List.map_append]
  congr 1
  · apply List.map_congr_left
    intro r hr
    rw [contextAt_append_of_mem h hr]
  · apply List.map_congr_left
    intro r hr
    rw [rule?_position (Option.mem_toList.mp hr), contextAt_append h (Nat.le_refl _)]

/-- Transitions one after another are all declared for the state that is selected before them. -/
theorem bindings_moves (h : ds.Unstopped) (row : List (EventId × StateId)) :
    (ds ++ moves row).bindings =
      ds.bindings ++ row.map fun move => ((ds.contextAt ds.length, move.1), move.2, none) := by
  induction row generalizing ds with
  | nil => simp [moves]
  | cons move row ih =>
    have hd : (ds ++ [Line.next move.1 move.2 none]).Unstopped :=
      unstopped_append_iff.mpr ⟨h, List.forall_mem_singleton.mpr rfl⟩
    have hcontext := contextAt_append_length hd
    simp only [Line.selected?] at hcontext
    rw [moves, List.map_cons, List.append_cons, ← moves, ih hd, bindings_append hd, List.length_append,
      List.length_singleton, hcontext]
    simp [Line.rule?, Rule.action]

theorem bindings_block (h : ds.Unstopped) (hs : s.isReserved = false) (name : String)
    (row : List (EventId × StateId)) :
    (ds ++ block s name row).bindings =
      ds.bindings ++ row.map fun move => ((some s, move.1), move.2, none) := by
  have hd : (ds ++ [Line.state s name]).Unstopped :=
    unstopped_append_iff.mpr ⟨h, List.forall_mem_singleton.mpr rfl⟩
  have hcontext := contextAt_append_length hd
  simp only [Line.selected?, hs, Bool.false_eq_true, if_false] at hcontext
  rw [block, List.append_cons, bindings_moves hd, bindings_append hd, List.length_append,
    List.length_singleton, hcontext]
  simp [Line.rule?]

/-- Every state has the transitions of its own block, whatever stands before the blocks. -/
theorem bindings_blocks (h : ds.Unstopped) (row : StateId → List (EventId × StateId))
    (labelled : List (StateId × String)) (hs : ∀ p ∈ labelled, p.1.isReserved = false) :
    (ds ++ labelled.flatMap fun (s, name) => block s name (row s)).bindings =
      ds.bindings ++ (labelled.map Prod.fst).flatMap fun s =>
        (row s).map fun move => ((some s, move.1), move.2, none) := by
  induction labelled generalizing ds with
  | nil => simp
  | cons p labelled ih =>
    obtain ⟨s, name⟩ := p
    obtain ⟨hs₁, hrest⟩ := List.forall_mem_cons.mp hs
    have hd : (ds ++ block s name (row s)).Unstopped :=
      unstopped_append_iff.mpr ⟨h, block_unstopped s name (row s)⟩
    rw [List.flatMap_cons, ← List.append_assoc, ih hd hrest, bindings_block h hs₁]
    simp

/-- Where repetitions are refused, no two transitions are declared for the same. -/
theorem Lawful.keys_nodup {settings : Settings} (h : ds.Lawful settings)
    (hrepeats : settings.repeats = .reject) : (ds.bindings.map Prod.fst).Nodup := by
  rw [bindings, List.map_map, List.Nodup, List.pairwise_map]
  refine ds.rules_pairwise.imp_of_mem ?_
  intro r r' hr hr' hlt hkey
  obtain ⟨hs, he⟩ := Prod.mk.inj hkey
  exact h.not_superseded hrepeats hr ⟨r', hr', hlt, he.symm, hs.symm⟩

/-- A transition is known by what it is declared for, if no other is declared for the same. -/
theorem rule_eq_of_nodup (h : (ds.bindings.map Prod.fst).Nodup) {r r' : Rule η}
    (hr : r ∈ ds.rules) (hr' : r' ∈ ds.rules) (he : r.event = r'.event)
    (hs : ds.contextAt r.position = ds.contextAt r'.position) : r = r' := by
  rw [bindings, List.map_map] at h
  exact List.inj_on_of_nodup_map h hr hr' (Prod.ext hs he)

theorem not_superseded_of_nodup (h : (ds.bindings.map Prod.fst).Nodup) {r : Rule η}
    (hr : r ∈ ds.rules) : ¬ ds.Superseded r := by
  intro hsuperseded
  obtain ⟨r', hr', hlt, he, hs⟩ := hsuperseded
  obtain rfl := rule_eq_of_nodup h hr' hr he hs
  exact Nat.lt_irrefl _ hlt

theorem action_eq_some_iff (h : (ds.bindings.map Prod.fst).Nodup) :
    (ds.rule? s e).map Rule.action = some a ↔ ((some s, e), a) ∈ ds.bindings := by
  rw [Option.map_eq_some_iff, bindings, List.mem_map]
  constructor
  · intro hfound
    obtain ⟨r, hr, rfl⟩ := hfound
    obtain ⟨hmem, rfl, hs⟩ := declares_of_rule? hr
    exact ⟨r, hmem, by rw [hs]⟩
  · intro hbound
    obtain ⟨r, hr, heq⟩ := hbound
    obtain ⟨hkey, rfl⟩ := Prod.mk.inj heq
    obtain ⟨hs, rfl⟩ := Prod.mk.inj hkey
    refine ⟨r, rule?_eq_some_iff.mpr ⟨⟨hr, rfl, hs⟩, ?_⟩, rfl⟩
    intro r' hdeclares
    obtain ⟨hr', he', hs'⟩ := hdeclares
    rw [rule_eq_of_nodup h hr' hr he' (hs'.trans hs.symm)]

end StateMachine.Description

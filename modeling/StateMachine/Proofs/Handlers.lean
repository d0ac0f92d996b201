import StateMachine.Proofs.Build

namespace StateMachine
variable {η θ κ ν : Type}

def Rule.map (f : η → θ) (r : Rule η) : Rule θ :=
  ⟨r.position, r.event, r.target, r.handler.map f⟩

namespace Line
variable (f : η → θ) (d : Line η)

theorem isStop_map : (d.map f).isStop = d.isStop := by
  cases d <;> rfl

theorem selected?_map : (d.map f).selected? = d.selected? := by
  cases d <;> rfl

theorem label?_map (space : Space) : (d.map f).label? space = d.label? space := by
  cases space <;> cases d <;> rfl

theorem handler?_map : (d.map f).handler? = d.handler?.map f := by
  cases d <;> rfl

theorem rule?_map (i : Nat) : (d.map f).rule? i = (d.rule? i).map (Rule.map f) := by
  cases d <;> rfl

theorem map_map {ι : Type} (g : θ → ι) : (d.map f).map g = d.map (g ∘ f) := by
  cases d with
  | next e target handler => simp only [Line.map, Option.map_map]
  | _ => rfl

end Line

namespace Description
variable (f : η → θ) (ds : Description η)

theorem active_map : active (ds.map (Line.map f)) = ds.active.map (Line.map f) := by
  rw [active, List.takeWhile_map, active]
  simp only [Function.comp_def, Line.isStop_map]

/-- The lines show nothing of the handlers in them but their places. -/
theorem bare_map : bare (ds.map (Line.map f)) = ds.bare := by
  simp only [bare, List.map_map, Function.comp_def, Line.map_map]

theorem active_bare : active (bare ds) = bare ds.active := active_map _ ds

/-- Every handler in the lines is made of one that was there. -/
theorem exists_of_handler?_map {d : Line θ} (hd : d ∈ active (ds.map (Line.map f))) {y : θ}
    (h : d.handler? = some y) : ∃ c ∈ ds.active, ∃ x, c.handler? = some x ∧ f x = y := by
  rw [active_map] at hd
  obtain ⟨c, hc, rfl⟩ := List.mem_map.mp hd
  rw [c.handler?_map] at h
  exact ⟨c, hc, Option.map_eq_some_iff.mp h⟩

theorem selected_map (xs : List (Line η)) :
    (xs.map (Line.map f)).filterMap Line.selected? = xs.filterMap Line.selected? := by
  rw [List.filterMap_map]
  exact List.filterMap_congr fun d _ => d.selected?_map f

theorem labels_map (xs : List (Line η)) (space : Space) :
    (xs.map (Line.map f)).filterMap (Line.label? space) = xs.filterMap (Line.label? space) := by
  rw [List.filterMap_map]
  exact List.filterMap_congr fun d _ => d.label?_map f space

theorem contextAt_map (i : Nat) : contextAt (ds.map (Line.map f)) i = ds.contextAt i := by
  rw [contextAt, active_map, ← List.map_take, ← List.map_reverse, List.findSome?_map]
  simp only [Function.comp_def, Line.selected?_map]
  rfl

theorem rules_map : rules (ds.map (Line.map f)) = ds.rules.map (Rule.map f) := by
  rw [rules, active_map, List.zipIdx_map, List.filterMap_map, rules, List.map_filterMap]
  apply List.filterMap_congr
  rintro ⟨d, i⟩ _
  exact d.rule?_map f i

theorem rule?_map (s : StateId) (e : EventId) :
    rule? (ds.map (Line.map f)) s e = (ds.rule? s e).map (Rule.map f) := by
  rw [rule?, rules_map, ← List.map_reverse, List.find?_map]
  simp only [Function.comp_def, Rule.map, contextAt_map]
  rfl

theorem entryHandler?_map (s : StateId) :
    entryHandler? (ds.map (Line.map f)) s = (ds.entryHandler? s).map f := by
  rw [entryHandler?, active_map, ← List.map_reverse, List.findSome?_map, entryHandler?,
    List.map_findSome?]
  congr 1
  funext d
  cases d <;> simp [Line.map, apply_ite]

theorem label?_map {space : Space} (n : Number space) :
    label? (ds.map (Line.map f)) n = ds.label? n := by
  rw [label?, active_map, ← List.map_reverse, labels_map, label?]

theorem nameOf_map {space : Space} (n : Number space) :
    nameOf (ds.map (Line.map f)) n = ds.nameOf n := by
  rw [nameOf, label?_map, nameOf]

theorem topState_map : topState (ds.map (Line.map f)) = ds.topState := by
  rw [topState, active_map, selected_map, topState]

theorem topEvent_map : topEvent (ds.map (Line.map f)) = ds.topEvent := by
  rw [topEvent, active_map, labels_map, topEvent]

end Description

/-- A table with other handlers represents the description with the same other handlers. -/
theorem Table.Represents.map {t : Table η κ} {ds : Description η} (k : t.Represents ds)
    (f : η → θ) (g : κ → ν) : (t.map f g).Represents (ds.map (Line.map f)) := by
  refine ⟨?_, ?_, ?_, k.cells_size, ?_, ?_, ?_, k.events_size, ?_⟩
  · simp [Table.map, k.lines]
  · rw [Description.topState_map]
    exact k.stateLimit
  · rw [Description.topEvent_map]
    exact k.eventLimit
  · intro s e hs he
    rw [Description.rule?_map, Option.map_map]
    exact k.cells s e hs he
  · exact Array.size_map.trans k.states_size
  · intro s hs
    rw [Description.nameOf_map, Description.entryHandler?_map]
    simp only [Table.map, Array.getElem?_map, k.states s hs]
    rfl
  · intro e he
    rw [Description.nameOf_map]
    exact k.events e he

end StateMachine

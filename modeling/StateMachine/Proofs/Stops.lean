import StateMachine.Proofs.Agreement

namespace StateMachine

namespace Description
variable {η : Type} {ds ds' : Description η}

theorem active_stop (ds rest : Description η) : active (ds ++ .stop :: rest) = ds.active := by
  induction ds with
  | nil => rfl
  | cons d ds ih =>
    rw [active, List.cons_append, List.takeWhile_cons, ← active, ih, active, active,
      List.takeWhile_cons]

/-- Descriptions with the same active lines have the same problems and the same extent. -/
theorem check_congr (h : ds.active = ds'.active) (settings : Settings) :
    ds.check settings = ds'.check settings := by
  simp only [check, problems, extent, h]

theorem rule?_congr (h : ds.active = ds'.active) (s : StateId) (e : EventId) :
    ds.rule? s e = ds'.rule? s e := by
  rw [← rule?_active, h, rule?_active]

theorem alike_of_active (h : ds.active = ds'.active) : ds.Alike ds' := by
  refine ⟨?_, ?_, ?_, ?_, ?_⟩
  · rw [← topState_active, h, topState_active]
  · rw [← topEvent_active, h, topEvent_active]
  · intro space n
    rw [← nameOf_active, h, nameOf_active]
  · intro s
    rw [← entryHandler?_active, h, entryHandler?_active]
  · intro s e
    rw [rule?_congr h]

end Description

namespace Blueprint
variable {η κ : Type} {ds ds' : Description η}

/-- The second pass puts the lines into the table as they are, and reads the active ones. -/
theorem fill_congr (b : Blueprint κ) (h : ds.active = ds'.active) :
    b.fill ds' ds.extent = (b.fill ds ds.extent).map fun t => { t with lines := ds'.toArray } := by
  have htake : ds.take ds.extent.lines = ds.active := by
    rw [Description.lines_extent, Description.take_active_length]
  have htake' : ds'.take ds.extent.lines = ds.active := by
    rw [Description.lines_extent, h, Description.take_active_length]
  rw [fill, fill, htake, htake']
  cases ds.extent.cells with
  | none => rfl
  | some cells =>
    cases hread : Filling.ofLines b.settings.width cells.toNat ds.extent ds.active with
    | error d => simp only [hread, bind, Except.bind, Except.map]
    | ok filling =>
      cases hclose : filling.close with
      | error d => simp only [hread, hclose, bind, Except.bind, Except.map]
      | ok filling' =>
        simp only [hread, hclose, bind, Except.bind]
        rfl

/-- What is built of the same active lines differs in the lines that the table keeps, and in nothing
else. -/
theorem build_congr (b : Blueprint κ) (h : ds.active = ds'.active) :
    b.build ds' =
      ((b.build ds).1.map fun t => { t with lines := ds'.toArray }, (b.build ds).2) := by
  rw [build, build, ← Description.check_congr h]
  cases hcheck : ds.check b.settings with
  | error problems => rfl
  | ok x =>
    obtain ⟨-, rfl⟩ := Description.check_eq_ok_iff.mp hcheck
    simp only [fill_congr b h]
    cases b.fill ds ds.extent with
    | error d => rfl
    | ok t => rfl

/-- A stop cuts the description off. Whatever stands after the first one, the description is checked,
measured and built as if it ended there, with the same notice. The two tables differ in the lines that
they keep, and in nothing else; they have the same sessions with all handlers that read these no
further than the first stop. -/
theorem stop_cuts_off (b : Blueprint κ) (ds rest : Description η) :
    (ds ++ .stop :: rest).check b.settings = ds.check b.settings ∧
      match b.build ds with
      | (.error error, notices) => b.build (ds ++ .stop :: rest) = (.error error, notices)
      | (.ok t, notices) =>
        ∃ t', b.build (ds ++ .stop :: rest) = (.ok t', notices) ∧
          t' = { t with lines := (ds ++ .stop :: rest).toArray } ∧
          t.Agrees View.untilStop t' ∧ t'.width = t.width ∧ t'.summary = t.summary := by
  have hactive : ds.active = Description.active (ds ++ .stop :: rest) := (ds.active_stop rest).symm
  refine ⟨(Description.check_congr hactive b.settings).symm, ?_⟩
  have hbuild := build_congr b hactive
  cases h : b.build ds with
  | mk result notices =>
    rw [h] at hbuild
    cases result with
    | error error => exact hbuild
    | ok t =>
      have k := Description.alike_of_active hactive
      have hrule := Description.rule?_congr hactive
      have hlines : ds.bare.active = Description.active (Description.bare (ds ++ .stop :: rest)) := by
        rw [Description.active_bare, Description.active_bare, hactive]
      have hagrees : t.Agrees View.untilStop { t with lines := (ds ++ .stop :: rest).toArray } :=
        agrees_of_build (congrArg Prod.fst h) (congrArg Prod.fst hbuild) rfl k hrule
          (congrArg List.length hactive) (view_equip k hrule hlines)
      refine ⟨_, hbuild, rfl, hagrees, rfl, ?_⟩
      rw [Table.summary, Table.summary, ← hagrees.transitions]
      rfl

/-- The override of the turnstile counts the lines that the table keeps, and a stop at their end is one
of them. -/
theorem turnstile_shows_stop : ∃ t t' : Table Unit Unit,
    (build ⟨"turnstile", { repeats := .lastWins }, none⟩ turnstile).1 = .ok t ∧
      (build ⟨"turnstile", { repeats := .lastWins }, none⟩ (turnstile ++ [Line.stop])).1 = .ok t' ∧
      let asking : Unit → Handler Nat Unit := fun _ view _ => .setContext view.lines.length (.done ())
      let holdings : Holdings Nat := ⟨fun _ => ⟨1⟩, fun _ => 0⟩
      let acts : List (Act Nat Unit) := [.perform 0 0 (.call (.step ⟨1⟩))]
      ((t.equip asking none).responses 0 holdings acts).map (·.holdings.contexts 0) = [8] ∧
        ((t'.equip asking none).responses 0 holdings acts).map (·.holdings.contexts 0) = [9] := by
  obtain ⟨t, hbuilt, -⟩ := turnstile_built (none : Option Unit)
  have hcheck : Description.check (turnstile ++ [.stop]) { repeats := .lastWins } = .ok ⟨3, 3, 8⟩ := by
    decide
  obtain ⟨t', hbuild, -⟩ := build_ok
    (b := (⟨"turnstile", { repeats := .lastWins }, none⟩ : Blueprint Unit)) hcheck
  have hbuilt' := congrArg Prod.fst hbuild
  refine ⟨t, t', hbuilt, hbuilt', ?_, ?_⟩
  · exact (contexts_step hbuilt _ _ 0 _ 0 0 ⟨1⟩).trans rfl
  · exact (contexts_step hbuilt' _ _ 0 _ 0 0 ⟨1⟩).trans rfl

end Blueprint
end StateMachine

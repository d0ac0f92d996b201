import StateMachine.Proofs.Runs

namespace StateMachine
variable {η κ σ ρ α β : Type}

namespace Account

/-- The same with another answer. -/
def answer (g : α → β) (a : Account σ ρ α) : Account σ ρ β :=
  ⟨a.result.map g, a.state, a.context, a.record⟩

/-- The account of a handler in a role: what it does by itself, between the marks where it begins and
where it returns. A handler that fails leaves the second one out. -/
def enclose (role : Role) (s : StateId) (e : EventId) (c : σ) (a : Account σ ρ α) : Account σ ρ α :=
  (a.andThen fun v s c => ⟨.ok v, s, c, [.ended role]⟩).after [.began role s e c]

theorem andThen_answer (a : Account σ ρ α) (g : α → β) :
    (a.andThen fun v s c => ⟨.ok (g v), s, c, []⟩) = a.answer g := by
  obtain ⟨_ | v, s, c, record⟩ := a
  · rfl
  · exact congrArg _ (List.append_nil record)

end Account

namespace Table
variable {t : Table (Handler σ ρ) (Logger σ ρ)} {calls : Calls σ ρ} {s : StateId} {e : EventId} {c : σ}

theorem invoke_enclose (role : Role) (handler : Handler σ ρ) (e : EventId) :
    (t.invoke calls role handler e s c).account =
      ((handler t.view e).exec calls s c).account.enclose role s e c :=
  invoke_account role handler e

end Table

namespace Blueprint
variable {b : Blueprint κ} {ds : Description η} {t : Table η κ}

theorem lookup_equip (h : (b.build ds).1 = .ok t) (f : η → Handler σ ρ)
    (logger : Option (Logger σ ρ)) {s : StateId} {e : EventId} (hs : s.index < t.stateLimit)
    (he : e.index < t.eventLimit) : (t.equip f logger).lookup s e = t.lookup s e := by
  obtain ⟨-, k, -, -⟩ := represents_of_build h
  have k' := ready_of_build h f logger
  rw [k.lookup_eq hs he, k'.lookup_eq hs he, Description.rule?_map, Option.map_map]
  cases ds.rule? s e with
  | none => rfl
  | some r => simp [Rule.map]

/-- A step on nothing is ignored, and one notice says so. -/
theorem step_of_none (h : (b.build ds).1 = .ok t) (f : η → Handler σ ρ) (logger : Option (Logger σ ρ))
    (depth : Nat) {s : StateId} {e : EventId} (hs : s.index < t.stateLimit)
    (he : e.index < t.eventLimit) (c : σ) (hr : ds.rule? s e = none) :
    ∃ source event, t.stateName s = .ok source ∧ t.eventName e = .ok event ∧
      ((t.equip f logger).step depth e s c).account =
        ⟨.ok .ignored, s, c, [.reported (.ignored t.name source event)]⟩ := by
  obtain ⟨-, k, -, -⟩ := represents_of_build h
  have k' := ready_of_build h f logger
  have hcell := k'.cell_eq hs he
  rw [Description.rule?_map, hr] at hcell
  have hclear := Table.breaches_step_eq_nil (t := t.equip f logger).mpr ⟨hs, he⟩
  refine ⟨_, _, k.stateName_eq hs, k.eventName_eq he, (k'.stepWith_ignored hclear hcell).trans ?_⟩
  rw [k'.stateText_eq hs, k'.eventText_eq he, Description.nameOf_map, Description.nameOf_map]
  rfl

/-- The cell of a transition leads to its target and to its override, ready to run. -/
theorem cell_of_rule (h : (b.build ds).1 = .ok t) (f : η → Handler σ ρ) (logger : Option (Logger σ ρ))
    {s : StateId} {e : EventId} (hs : s.index < t.stateLimit) (he : e.index < t.eventLimit) {r : Rule η}
    (hr : ds.rule? s e = some r) :
    (t.equip f logger).cell s e = .ok (some r.position) ∧
      (t.equip f logger).transitionAt r.position = .ok (r.target, r.handler.map f) := by
  have k' := ready_of_build h f logger
  have hrule := ds.rule?_map f s e
  rw [hr] at hrule
  have hcell := k'.cell_eq hs he
  rw [hrule] at hcell
  exact ⟨hcell, k'.transitionAt_eq (Description.declares_of_rule? hrule).1⟩

/-- A look-up tells what a step will do, in any context and with any handlers and loggers. Where it
finds nothing, the event is ignored and one notice says so. Where it finds a transition that is
overridden, the step is the handler of that line: it does what the handler does when it is called
directly, and no more. Else the step is a call to enter the target, and answers with the target
wherever the machine is by then. The look-up itself does nothing, whoever makes it. -/
theorem lookup_predicts (h : (b.build ds).1 = .ok t) (f : η → Handler σ ρ)
    (logger : Option (Logger σ ρ)) (depth : Nat) {s : StateId} {e : EventId}
    (hs : s.index < t.stateLimit) (he : e.index < t.eventLimit) (c : σ) :
    ∃ found, t.lookup s e = .ok found ∧
      (∀ (calls : Calls σ ρ) (rest : Option Transition → Routine σ ρ Unit),
        ((Routine.lift ((t.equip f logger).view.lookup s e)).bind rest).exec calls =
          (rest found).exec calls) ∧
      let account := ((t.equip f logger).step depth e s c).account
      match found with
      | none => ∃ source event, t.stateName s = .ok source ∧ t.eventName e = .ok event ∧
        account = ⟨.ok .ignored, s, c, [.reported (.ignored t.name source event)]⟩
      | some transition =>
        if transition.overridden then
          ∃ x, ds[transition.position]? = some (.next e transition.target (some x)) ∧
            ∃ own : Account σ ρ Unit,
              ((t.equip f logger).run depth (f x) e s c).account = own.enclose .direct s e c ∧
              account = (own.enclose .override s e c).answer fun _ => .handled
        else
          account = ((t.equip f logger).enter depth transition.target e s c).account.answer
            fun _ => .entered transition.target := by
  obtain ⟨-, k, -, -⟩ := represents_of_build h
  have hlookup := k.lookup_eq hs he
  refine ⟨_, hlookup, ?_, ?_⟩
  · intro calls rest
    have hview : (t.equip f logger).view.lookup s e = _ := lookup_equip h f logger hs he
    rw [hview, hlookup]
    rfl
  · cases hr : ds.rule? s e with
    | none => exact step_of_none h f logger depth hs he c hr
    | some r =>
      have hdeclares := Description.declares_of_rule? hr
      have hline := Description.getElem?_of_mem_rules hdeclares.1
      rw [hdeclares.2.1] at hline
      obtain ⟨hcell, hat⟩ := cell_of_rule h f logger hs he hr
      obtain ⟨position, event, target, override⟩ := r
      cases override with
      | none => exact (Table.stepWith_transition hcell hat).trans (Account.andThen_answer _ _)
      | some x =>
        refine ⟨x, hline, _, Table.invoke_enclose .direct (f x) e,
          (Table.stepWith_override hcell hat).trans ?_⟩
        rw [Table.invoke_enclose]
        exact Account.andThen_answer _ _

/-- The turnstile is predicted at both of its transitions: the one from state 2 is made, and the one from
state 1 is left to its override. -/
theorem turnstile_predicted : ∃ t : Table Unit Unit,
    (build ⟨"turnstile", { repeats := .lastWins }, none⟩ turnstile).1 = .ok t ∧
      let t' := t.equip (fun _ => Table.jumpTo ⟨2⟩) (none : Option (Logger Unit Unit))
      (t'.step 1 ⟨2⟩ ⟨2⟩ ()).account =
          (t'.enter 1 ⟨1⟩ ⟨2⟩ ⟨2⟩ ()).account.answer (fun _ => .entered ⟨1⟩) ∧
        ∃ own : Account Unit Unit Unit,
          (t'.run 1 (Table.jumpTo ⟨2⟩) ⟨1⟩ ⟨1⟩ ()).account = own.enclose .direct ⟨1⟩ ⟨1⟩ () ∧
          (t'.step 1 ⟨1⟩ ⟨1⟩ ()).account =
            (own.enclose .override ⟨1⟩ ⟨1⟩ ()).answer fun _ => .handled := by
  obtain ⟨t, hbuilt, k, -, -⟩ := turnstile_built (none : Option Unit)
  have hs : ∀ s : StateId, s.index < 3 → s.index < t.stateLimit := fun s hs => by
    rw [k.stateLimit]
    exact hs
  have he : ∀ e : EventId, e.index < 3 → e.index < t.eventLimit := fun e he => by
    rw [k.eventLimit]
    exact he
  have hplain : t.lookup ⟨2⟩ ⟨2⟩ = .ok (some ⟨⟨2⟩, ⟨2⟩, ⟨1⟩, false, 5⟩) :=
    k.lookup_eq (hs _ (by decide)) (he _ (by decide))
  have hoverridden : t.lookup ⟨1⟩ ⟨1⟩ = .ok (some ⟨⟨1⟩, ⟨1⟩, ⟨2⟩, true, 7⟩) :=
    k.lookup_eq (hs _ (by decide)) (he _ (by decide))
  refine ⟨t, hbuilt, ?_, ?_⟩
  · obtain ⟨found, hfound, -, hstep⟩ := lookup_predicts hbuilt (fun _ => Table.jumpTo ⟨2⟩)
      (none : Option (Logger Unit Unit)) 1 (hs ⟨2⟩ (by decide)) (he ⟨2⟩ (by decide)) ()
    obtain rfl := Except.ok.inj (hplain.symm.trans hfound)
    exact hstep
  · obtain ⟨found, hfound, -, hstep⟩ := lookup_predicts hbuilt (fun _ => Table.jumpTo ⟨2⟩)
      (none : Option (Logger Unit Unit)) 1 (hs ⟨1⟩ (by decide)) (he ⟨1⟩ (by decide)) ()
    obtain rfl := Except.ok.inj (hoverridden.symm.trans hfound)
    obtain ⟨-, -, hown⟩ := hstep
    exact hown

end Blueprint
end StateMachine

import StateMachine.Proofs.Paths

namespace StateMachine

namespace Description
variable {η : Type} {ds : Description η}

theorem plain_map {θ : Type} (f : η → θ) (h : ∀ d ∈ ds.active, d.handler? = none) :
    ∀ d ∈ active (ds.map (Line.map f)), d.handler? = none := by
  rw [active_map]
  intro d hd
  obtain ⟨c, hc, rfl⟩ := List.mem_map.mp hd
  rw [c.handler?_map, h c hc]
  rfl

theorem entryHandler?_eq_none (h : ∀ d ∈ ds.active, d.handler? = none) (s : StateId) :
    ds.entryHandler? s = none := by
  cases hs : ds.entryHandler? s with
  | none => rfl
  | some handler => cases h _ (onEntry_of_entryHandler? hs)

end Description

namespace Table
variable {σ ρ : Type} {t : Table (Handler σ ρ) (Logger σ ρ)} {ds : Description (Handler σ ρ)}
  {calls : Calls σ ρ} {s target : StateId} {e : EventId} {c : σ}

theorem Represents.not_carries (k : t.Represents ds) (hplain : ∀ d ∈ ds.active, d.handler? = none)
    (handler : Handler σ ρ) : ¬ t.Carries handler := by
  intro hcarries
  obtain ⟨d, hd, hhandler⟩ := k.line_of_carries hcarries
  rw [hplain d hd] at hhandler
  cases hhandler

theorem Represents.entryHandler?_plain (k : t.Represents ds)
    (hplain : ∀ d ∈ ds.active, d.handler? = none) (s : StateId) : t.entryHandler? s = none := by
  cases h : t.entryHandler? s with
  | none => rfl
  | some handler => exact absurd (.entry h) (k.not_carries hplain handler)

/-- A move with all numbers in range ends in its target, unless the logger fails. -/
theorem Represents.enterWith_plain (k : t.Represents ds)
    (hplain : ∀ d ∈ ds.active, d.handler? = none) (h : t.breaches s (.enter target e) = []) :
    (t.enterWith calls target e s c).account =
      match t.logFailure? s target e c with
      | some message => ⟨.error (.raised message), s, c, t.told s target e c⟩
      | none => ⟨.ok (), target, c, t.moved s target e c⟩ := by
  rw [k.enterWith_clear h]
  cases t.logFailure? s target e c with
  | some message => rfl
  | none => simp [arrive_none (k.entryHandler?_plain hplain target)]

/-- A step with its numbers in range finds nothing, or enters the target of its transition. -/
theorem Represents.stepWith_plain (k : t.Represents ds)
    (hplain : ∀ d ∈ ds.active, d.handler? = none) (h : t.breaches s (.step e) = []) :
    (t.stepWith calls e s c).account =
      match ds.rule? s e with
      | none => ⟨.ok .ignored, s, c, [.reported (.ignored t.name (t.stateText s) (t.eventText e))]⟩
      | some r => (t.enterWith calls r.target e s c).account.andThen fun _ s c =>
        ⟨.ok (.entered r.target), s, c, []⟩ := by
  obtain ⟨hs, he⟩ := breaches_step_eq_nil.mp h
  have hcell := k.cell_eq hs he
  cases hr : ds.rule? s e with
  | none =>
    rw [hr] at hcell
    exact k.stepWith_ignored h hcell
  | some r =>
    rw [hr] at hcell
    have hat := k.transitionAt_eq (Description.declares_of_rule? hr).1
    cases hhandler : r.handler with
    | none =>
      rw [hhandler] at hat
      exact stepWith_transition hcell hat
    | some handler =>
      rw [hhandler] at hat
      exact absurd (.override hcell hat) (k.not_carries hplain handler)

end Table
end StateMachine

import StateMachine.Proofs.Congruence
import StateMachine.Reading

namespace StateMachine
variable {σ ρ α β : Type}

namespace Exec

/-- The first call ran out of depth, or the second goes the same way. -/
def Approximates (x y : Exec σ ρ α) : Prop :=
  ∀ s c, (x s c).result = .error .nesting ∨ y s c = x s c

theorem Approximates.refl (x : Exec σ ρ α) : x.Approximates x := fun _ _ => .inr rfl

theorem Approximates.bind {x y : Exec σ ρ α} {f g : α → Exec σ ρ β} (h : x.Approximates y)
    (hf : ∀ a, (f a).Approximates (g a)) : (x >>= f).Approximates (y >>= g) := by
  intro s c
  change (Exec.bind x f s c).result = _ ∨ Exec.bind y g s c = Exec.bind x f s c
  have hrun := h s c
  unfold Exec.bind
  cases hx : x s c with
  | mk result s' c' trail =>
    rw [hx] at hrun
    rcases hrun with hout | hsame
    · obtain rfl : result = .error .nesting := hout
      exact .inl rfl
    · rw [hsame]
      cases result with
      | error fault => exact .inr rfl
      | ok a =>
        rcases hf a s' c' with hout | hnext
        · exact .inl hout
        · right
          dsimp only
          rw [hnext]

end Exec

structure Calls.Approximates (calls calls' : Calls σ ρ) : Prop where
  enter : ∀ target event, (calls.enter target event).Approximates (calls'.enter target event)
  step : ∀ event, (calls.step event).Approximates (calls'.step event)

variable {calls calls' : Calls σ ρ}

namespace Table
variable {t : Table (Handler σ ρ) (Logger σ ρ)}

theorem approximates_congruence : t.Congruence (fun _ => Exec.Approximates) t.logger where
  bind h hf := h.bind hf
  lift r := .refl _
  state := .refl _
  context := .refl _
  setContext c := .refl _
  tell _ := .refl _
  assign _ _ _ _ := .refl _
  unasked _ := rfl
  moveThen target e x y h := by
    refine .bind (.refl _) fun current => .bind (.refl _) fun _ => .bind (.refl _) fun _ =>
      .bind (.refl _) fun _ => .bind (.refl _) fun _ => .bind (.refl _) fun _ =>
      .bind (.refl _) fun _ => .bind (.refl _) fun _ => .bind (.refl _) fun _ =>
      .bind (.refl _) fun _ => h

theorem calls_approximates (depth more : Nat) :
    (t.calls depth).Approximates (t.calls (depth + more)) := by
  induction depth with
  | zero => exact ⟨fun _ _ _ _ => .inl rfl, fun _ _ _ => .inl rfl⟩
  | succ depth ih =>
    rw [Nat.succ_add]
    have hnested : Calls.Related (fun _ => Exec.Approximates) (t.calls depth)
        (t.calls (depth + more)) := ⟨ih.enter, ih.step⟩
    exact ⟨approximates_congruence.enterWith hnested, approximates_congruence.stepWith hnested⟩

end Table

theorem Calls.Approximates.respond (h : calls.Approximates calls') {holdings : Holdings σ}
    {turn : Turn} (hdeep : (calls.respond holdings turn).outcome ≠ .error .nesting) :
    calls'.respond holdings turn = calls.respond holdings turn := by
  obtain ⟨machine, context, request⟩ := turn
  cases request with
  | step event =>
    rcases h.step event (holdings.machines machine) (holdings.contexts context) with hout | hsame
    · exact absurd (congrArg (Except.map some) hout) hdeep
    · simp only [Calls.respond, Holdings.drive, hsame]
  | enter target event =>
    rcases h.enter target event (holdings.machines machine) (holdings.contexts context) with
      hout | hsame
    · exact absurd (congrArg (Except.map fun _ => none) hout) hdeep
    · simp only [Calls.respond, Holdings.drive, hsame]

theorem Calls.Approximates.transcript (h : calls.Approximates calls') {turns : List Turn}
    {holdings : Holdings σ}
    (hdeep : ∀ response ∈ calls.transcript holdings turns, response.outcome ≠ .error .nesting) :
    calls'.transcript holdings turns = calls.transcript holdings turns := by
  induction turns generalizing holdings with
  | nil => rfl
  | cons turn rest ih =>
    obtain ⟨hfirst, hrest⟩ := List.forall_mem_cons.mp hdeep
    rw [Calls.transcript, h.respond hfirst, ih hrest, Calls.transcript]

/-- A session that never runs out of depth is the same session at every greater depth. -/
theorem Table.transcript_of_le {t : Table (Handler σ ρ) (Logger σ ρ)} {depth depth' : Nat}
    (hle : depth ≤ depth') {holdings : Holdings σ} {turns : List Turn}
    (hdeep : ∀ response ∈ (t.calls depth).transcript holdings turns,
      response.outcome ≠ .error .nesting) :
    (t.calls depth').transcript holdings turns = (t.calls depth).transcript holdings turns := by
  obtain ⟨more, rfl⟩ := Nat.exists_eq_add_of_le hle
  exact (calls_approximates depth more).transcript hdeep

end StateMachine

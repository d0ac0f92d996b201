import StateMachine.Proofs.Runs

namespace StateMachine
variable {σ ρ α β : Type}

namespace Failure

@[simp] theorem account_after (failure : Failure σ ρ) (earlier : List (Occurrence σ ρ)) :
    (failure.account : Account σ ρ α).after earlier = (failure.after earlier).account := rfl

@[simp] theorem account_andThen (failure : Failure σ ρ)
    (f : α → StateId → σ → Account σ ρ β) :
    failure.account.andThen f = failure.account := rfl

theorem after_after (failure : Failure σ ρ) (earlier later : List (Occurrence σ ρ)) :
    (failure.after later).after earlier = failure.after (earlier ++ later) := by
  simp only [after, List.append_assoc]

theorem account_inj {failure failure' : Failure σ ρ} :
    (failure.account : Account σ ρ α) = failure'.account ↔ failure = failure' := by
  obtain ⟨fault, s, c, record⟩ := failure
  obtain ⟨fault', s', c', record'⟩ := failure'
  simp [account]

theorem account_ne_ok {failure : Failure σ ρ} {v : α} {s : StateId} {c : σ}
    {record : List (Occurrence σ ρ)} : ⟨.ok v, s, c, record⟩ ≠ failure.account := by
  intro h
  cases congrArg Account.result h

end Failure

namespace Account
variable {a : Account σ ρ α} {failure : Failure σ ρ}

theorem after_eq_failure {earlier : List (Occurrence σ ρ)}
    (h : a.after earlier = failure.account) :
    ∃ own : Failure σ ρ, a = own.account ∧ failure = own.after earlier := by
  obtain ⟨_ | v, s, c, record⟩ := a
  · refine ⟨⟨_, s, c, record⟩, rfl, ?_⟩
    exact (Failure.account_inj (α := α)).mp h.symm
  · exact absurd h Failure.account_ne_ok

/-- Of two in a row, either the first fails or the second does. -/
theorem andThen_eq_failure {f : α → StateId → σ → Account σ ρ β}
    (h : a.andThen f = failure.account) :
    a = failure.account ∨ ∃ v s c record, ∃ own : Failure σ ρ, a = ⟨.ok v, s, c, record⟩ ∧
      f v s c = own.account ∧ failure = own.after record := by
  obtain ⟨fault | v, s, c, record⟩ := a
  · left
    have he : (⟨fault, s, c, record⟩ : Failure σ ρ) = failure := Failure.account_inj.mp h
    rw [← he]
    rfl
  · obtain ⟨own, hown, rfl⟩ := after_eq_failure h
    exact .inr ⟨v, s, c, record, own, rfl, hown, rfl⟩

/-- An answer put at the end does not fail. -/
theorem andThen_answer_eq_failure {g : α → β} {later : List (Occurrence σ ρ)} :
    (a.andThen fun v s c => ⟨.ok (g v), s, c, later⟩) = failure.account ↔
      a = failure.account := by
  constructor
  · intro h
    rcases andThen_eq_failure h with h | ⟨v, s, c, record, own, -, hown, -⟩
    · exact h
    · exact absurd hown Failure.account_ne_ok
  · intro h
    rw [h]
    rfl

end Account

namespace Routine
variable {calls : Calls σ ρ} {r r' : Routine σ ρ α} {s s' : StateId} {c c' : σ}
  {record : List (Occurrence σ ρ)} {failure : Failure σ ρ}

theorem Reaches.account (h : r.Reaches calls s c record r' s' c') :
    (r.exec calls s c).account = (r'.exec calls s' c').account.after record := by
  induction h with
  | here => rfl
  | getState _ ih => simpa [exec] using ih
  | setState _ ih => simp [exec, ih]
  | getContext _ ih => simpa [exec] using ih
  | setContext _ ih => simpa [exec] using ih
  | note _ ih => simp [exec, ih]
  | enter hcall _ ih => simp [exec, hcall, ih]
  | step hcall _ ih => simp [exec, hcall, ih]

theorem account_request {request : Request} (hrequest : r.request? = some request)
    (h : (calls.request request s c).account = failure.account) :
    (r.exec calls s c).account = failure.account := by
  cases r with
  | enter target e rest =>
    obtain rfl := Option.some.inj hrequest
    have hcall : (calls.enter target e s c).account = failure.account :=
      Account.andThen_answer_eq_failure.mp (by simpa [Calls.request] using h)
    simp [exec, hcall]
  | step e rest =>
    obtain rfl := Option.some.inj hrequest
    have hcall : (calls.step e s c).account = failure.account :=
      Account.andThen_answer_eq_failure.mp (by simpa [Calls.request] using h)
    simp [exec, hcall]
  | _ => cases hrequest

/-- Where the execution of a handler has come to when it fails: it fails itself, or a call that it
makes does. -/
def Stopped (calls : Calls σ ρ) (r : Routine σ ρ α) (s : StateId) (c : σ)
    (own : Failure σ ρ) : Prop :=
  (∃ fault, r = .fail fault ∧ own = ⟨fault, s, c, []⟩) ∨
    ∃ request, r.request? = some request ∧ (calls.request request s c).account = own.account

theorem exec_fails (h : (r.exec calls s c).account = failure.account) :
    ∃ record rest s' c' own, r.Reaches calls s c record rest s' c' ∧
      Stopped calls rest s' c' own ∧ failure = own.after record := by
  induction r generalizing s c failure with
  | done a => exact absurd h Failure.account_ne_ok
  | fail fault =>
    have he : (⟨fault, s, c, []⟩ : Failure σ ρ) = failure := Failure.account_inj.mp h
    exact ⟨[], _, s, c, _, .here, .inl ⟨fault, rfl, rfl⟩, he.symm⟩
  | getState rest ih =>
    obtain ⟨record, r', s', c', own, hreach, hown, rfl⟩ := ih s (by simpa [exec] using h)
    exact ⟨record, r', s', c', own, .getState hreach, hown, rfl⟩
  | setState s₁ rest ih =>
    simp only [exec, Exec.account_bind, Exec.account_assign, Account.andThen_ok] at h
    obtain ⟨inner, hinner, rfl⟩ := Account.after_eq_failure h
    obtain ⟨record, r', s', c', own, hreach, hown, rfl⟩ := ih hinner
    exact ⟨_, r', s', c', own, .setState hreach, hown, own.after_after _ _⟩
  | getContext rest ih =>
    obtain ⟨record, r', s', c', own, hreach, hown, rfl⟩ := ih c (by simpa [exec] using h)
    exact ⟨record, r', s', c', own, .getContext hreach, hown, rfl⟩
  | setContext c₁ rest ih =>
    obtain ⟨record, r', s', c', own, hreach, hown, rfl⟩ := ih (by simpa [exec] using h)
    exact ⟨record, r', s', c', own, .setContext hreach, hown, rfl⟩
  | note n rest ih =>
    simp only [exec, Exec.account_bind, Exec.account_tell, Account.andThen_ok] at h
    obtain ⟨inner, hinner, rfl⟩ := Account.after_eq_failure h
    obtain ⟨record, r', s', c', own, hreach, hown, rfl⟩ := ih hinner
    exact ⟨_, r', s', c', own, .note hreach, hown, own.after_after _ _⟩
  | enter target e rest ih =>
    simp only [exec, Exec.account_bind] at h
    rcases Account.andThen_eq_failure h with hcall | ⟨_, s₁, c₁, made, inner, hcall, hinner, rfl⟩
    · refine ⟨[], _, s, c, failure, .here, .inr ⟨_, rfl, ?_⟩, rfl⟩
      simp [Calls.request, hcall]
    · obtain ⟨record, r', s', c', own, hreach, hown, rfl⟩ := ih hinner
      exact ⟨_, r', s', c', own, .enter hcall hreach, hown, own.after_after _ _⟩
  | step e rest ih =>
    simp only [exec, Exec.account_bind] at h
    rcases Account.andThen_eq_failure h with hcall | ⟨d, s₁, c₁, made, inner, hcall, hinner, rfl⟩
    · refine ⟨[], _, s, c, failure, .here, .inr ⟨_, rfl, ?_⟩, rfl⟩
      simp [Calls.request, hcall]
    · obtain ⟨record, r', s', c', own, hreach, hown, rfl⟩ := ih d hinner
      exact ⟨_, r', s', c', own, .step hcall hreach, hown, own.after_after _ _⟩

end Routine

namespace Table
variable {t : Table (Handler σ ρ) (Logger σ ρ)} {ds : Description (Handler σ ρ)} {depth : Nat}
  {s target : StateId} {e : EventId} {c : σ} {failure : Failure σ ρ} {p q : Start σ ρ}
  {role : Role} {handler : Handler σ ρ} {record : List (Occurrence σ ρ)}

theorem account_enter_iff : t.account ⟨depth, .call (.enter target e), s, c⟩ = failure.account ↔
    (t.enterWith (t.calls depth) target e s c).account = failure.account := by
  rw [account, perform, Calls.request, Exec.account_bind]
  exact Account.andThen_answer_eq_failure

theorem account_step_iff : t.account ⟨depth, .call (.step e), s, c⟩ = failure.account ↔
    (t.stepWith (t.calls depth) e s c).account = failure.account := by
  rw [account, perform, Calls.request, Exec.account_bind]
  exact Account.andThen_answer_eq_failure

theorem invoke_eq_failure {calls : Calls σ ρ} :
    (t.invoke calls role handler e s c).account = failure.account ↔
      ∃ own : Failure σ ρ, ((handler t.view e).exec calls s c).account = own.account ∧
        failure = own.after [.began role s e c] := by
  rw [invoke_account]
  constructor
  · intro h
    obtain ⟨own, hown, rfl⟩ := Account.after_eq_failure h
    exact ⟨own, Account.andThen_answer_eq_failure.mp hown, rfl⟩
  · intro h
    obtain ⟨own, hown, rfl⟩ := h
    rw [Account.andThen_answer_eq_failure.mpr hown]
    rfl

theorem account_handle_iff : t.account ⟨depth, .handle role handler e, s, c⟩ = failure.account ↔
    (t.invoke (t.calls depth) role handler e s c).account = failure.account := by
  rw [account, perform, Exec.account_bind]
  exact Account.andThen_answer_eq_failure

/-- What fails inside fails the work around it, and what was done before stays. -/
theorem Ready.fails_of_leads (k : t.Ready ds) (h : t.Leads p record q)
    (hq : t.account q = failure.account) : t.account p = (failure.after record).account := by
  cases h with
  | override hcell hat =>
    rw [account_step_iff, stepWith_override hcell hat, account_handle_iff.mp hq]
    rfl
  | transition hcell hat =>
    rw [account_step_iff, stepWith_transition hcell hat, account_enter_iff.mp hq]
    rfl
  | arrival hclear hlog hentry =>
    rw [account_enter_iff, k.enterWith_clear hclear, hlog]
    simp only [arrive, hentry, account_handle_iff.mp hq, Failure.account_after]
  | nested hreach hrequest =>
    rw [account_handle_iff, invoke_eq_failure]
    refine ⟨_, ?_, (failure.after_after [_] _).symm⟩
    rw [hreach.account, Routine.account_request hrequest hq]
    rfl

theorem Ready.fails_of_reaches (k : t.Ready ds) (h : t.Reaches p record q)
    (hq : t.account q = failure.account) : t.account p = (failure.after record).account := by
  induction h with
  | here => exact hq
  | into h _ ih =>
    rw [← failure.after_after]
    exact k.fails_of_leads h (ih hq)

theorem Ready.fails_of_culprit (k : t.Ready ds) (h : t.Culprit p failure) :
    t.account p = failure.account := by
  cases h with
  | @range _ request _ _ _ h =>
    cases request with
    | step e => exact account_step_iff.mpr (stepWith_breach h)
    | enter target e => exact account_enter_iff.mpr (enterWith_breach h)
  | logger hclear h =>
    rw [account_enter_iff, k.enterWith_clear hclear, h]
    rfl
  | handler h =>
    rw [account_handle_iff, invoke_eq_failure]
    refine ⟨⟨_, _, _, _⟩, h.account.trans ?_, rfl⟩
    simp [Routine.exec, Failure.account]
  | @depth _ _ _ _ _ _ rest s' c' request h hrequest =>
    rw [account_handle_iff, invoke_eq_failure]
    have hcall : ((t.calls 0).request request s' c').account =
        (⟨.nesting, s', c', []⟩ : Failure σ ρ).account := by
      cases request <;> rfl
    refine ⟨⟨_, _, _, _⟩, h.account.trans ?_, rfl⟩
    simp [Routine.account_request hrequest hcall, Failure.after]

/-- The course of a work comes to a culprit, and what the culprit leaves behind is left. -/
def Blamed (t : Table (Handler σ ρ) (Logger σ ρ)) (p : Start σ ρ) (failure : Failure σ ρ) :
    Prop :=
  ∃ record q own, t.Reaches p record q ∧ t.Culprit q own ∧ failure = own.after record

theorem Blamed.own (h : t.Culprit p failure) : t.Blamed p failure := ⟨[], p, failure, .here, h, rfl⟩

/-- Something that goes the way of a culprit, and fails, has failed as the culprit does. -/
theorem Blamed.of_culprit {own : Failure σ ρ} (h : t.Culprit p own)
    (hrun : (own.account : Account σ ρ α) = failure.account) : t.Blamed p failure := by
  rw [← Failure.account_inj.mp hrun]
  exact .own h

theorem Blamed.into (h : t.Leads p record q) (hq : t.Blamed q failure) :
    t.Blamed p (failure.after record) := by
  obtain ⟨later, q', own, hreach, hculprit, rfl⟩ := hq
  exact ⟨record ++ later, q', own, .into h hreach, hculprit, own.after_after _ _⟩

theorem handle_blamed
    (hcall : ∀ depth', depth = depth' + 1 → ∀ request s c failure,
      t.account ⟨depth', .call request, s, c⟩ = failure.account →
        t.Blamed ⟨depth', .call request, s, c⟩ failure)
    (h : t.account ⟨depth, .handle role handler e, s, c⟩ = failure.account) :
    t.Blamed ⟨depth, .handle role handler e, s, c⟩ failure := by
  obtain ⟨inner, hexec, rfl⟩ := invoke_eq_failure.mp (account_handle_iff.mp h)
  obtain ⟨record, rest, s', c', own, hreach, hstopped, rfl⟩ := Routine.exec_fails hexec
  rcases hstopped with ⟨fault, rfl, rfl⟩ | ⟨request, hrequest, hown⟩
  · refine .own ?_
    simpa [Failure.after] using Culprit.handler hreach
  · cases depth with
    | zero =>
      have hfault : (⟨.nesting, s', c', []⟩ : Failure σ ρ) = own := by
        cases request <;> exact Failure.account_inj.mp hown
      subst hfault
      refine .own ?_
      simpa [Failure.after] using Culprit.depth hreach hrequest
    | succ depth =>
      rw [Failure.after_after]
      exact .into (.nested hreach hrequest) (hcall depth rfl request s' c' own hown)

theorem Ready.enter_blamed (k : t.Ready ds)
    (hhandle : ∀ role handler e s c failure,
      t.account ⟨depth, .handle role handler e, s, c⟩ = failure.account →
        t.Blamed ⟨depth, .handle role handler e, s, c⟩ failure)
    (h : t.account ⟨depth, .call (.enter target e), s, c⟩ = failure.account) :
    t.Blamed ⟨depth, .call (.enter target e), s, c⟩ failure := by
  have hrun := account_enter_iff.mp h
  cases hhead : (t.breaches s (.enter target e)).head? with
  | some fault =>
    rw [enterWith_breach hhead] at hrun
    exact .of_culprit (.range hhead) hrun
  | none =>
    have hclear := List.head?_eq_none_iff.mp hhead
    rw [k.enterWith_clear hclear] at hrun
    cases hlog : t.logFailure? s target e c with
    | some message =>
      rw [hlog] at hrun
      exact .of_culprit (.logger hclear hlog) hrun
    | none =>
      rw [hlog] at hrun
      obtain ⟨own, harrive, rfl⟩ := Account.after_eq_failure hrun
      cases hentry : t.entryHandler? target with
      | none =>
        rw [arrive, hentry] at harrive
        exact absurd harrive Failure.account_ne_ok
      | some handler =>
        rw [arrive, hentry] at harrive
        exact .into (.arrival hclear hlog hentry)
          (hhandle _ _ _ _ _ _ (account_handle_iff.mpr harrive))

theorem Ready.step_blamed (k : t.Ready ds)
    (hhandle : ∀ role handler e s c failure,
      t.account ⟨depth, .handle role handler e, s, c⟩ = failure.account →
        t.Blamed ⟨depth, .handle role handler e, s, c⟩ failure)
    (h : t.account ⟨depth, .call (.step e), s, c⟩ = failure.account) :
    t.Blamed ⟨depth, .call (.step e), s, c⟩ failure := by
  have hrun := account_step_iff.mp h
  cases hhead : (t.breaches s (.step e)).head? with
  | some fault =>
    rw [stepWith_breach hhead] at hrun
    exact .of_culprit (.range hhead) hrun
  | none =>
    have hclear := List.head?_eq_none_iff.mp hhead
    rcases k.cell_cases hclear with hcell | ⟨⟨i, e', target, override⟩, -, hcell, hat⟩
    · rw [k.stepWith_ignored hclear hcell] at hrun
      exact absurd hrun Failure.account_ne_ok
    · cases override with
      | none =>
        rw [stepWith_transition hcell hat, Account.andThen_answer_eq_failure] at hrun
        exact .into (.transition hcell hat)
          (k.enter_blamed hhandle (account_enter_iff.mpr hrun))
      | some handler =>
        rw [stepWith_override hcell hat, Account.andThen_answer_eq_failure] at hrun
        exact .into (.override hcell hat) (hhandle _ _ _ _ _ _ (account_handle_iff.mpr hrun))

/-- Handlers fail by themselves or by a call one level further down, so the depth carries the
induction. -/
theorem Ready.handler_blamed (k : t.Ready ds) :
    t.account ⟨depth, .handle role handler e, s, c⟩ = failure.account →
      t.Blamed ⟨depth, .handle role handler e, s, c⟩ failure := by
  induction depth generalizing role handler e s c failure with
  | zero =>
    intro h
    refine handle_blamed ?_ h
    intro depth' hdepth
    cases hdepth
  | succ depth ih =>
    intro h
    refine handle_blamed ?_ h
    intro depth' hdepth request s c failure hcall
    obtain rfl := Nat.succ.inj hdepth
    cases request with
    | step e => exact k.step_blamed (fun _ _ _ _ _ _ => ih) hcall
    | enter target e => exact k.enter_blamed (fun _ _ _ _ _ _ => ih) hcall

/-- Whatever fails has a culprit. -/
theorem Ready.blamed (k : t.Ready ds) (h : t.account p = failure.account) :
    t.Blamed p failure := by
  obtain ⟨depth, work, s, c⟩ := p
  cases work with
  | handle role handler e => exact k.handler_blamed h
  | call request =>
    cases request with
    | step e => exact k.step_blamed (fun _ _ _ _ _ _ => k.handler_blamed) h
    | enter target e => exact k.enter_blamed (fun _ _ _ _ _ _ => k.handler_blamed) h

/-- A move with all numbers in range does something, even if it fails. -/
theorem Ready.enter_record_ne_nil (k : t.Ready ds) (h : t.breaches s (.enter target e) = [])
    (hrun : (t.enterWith (t.calls depth) target e s c).account = failure.account) :
    failure.record ≠ [] := by
  rw [k.enterWith_clear h] at hrun
  cases hlog : t.logFailure? s target e c with
  | none =>
    rw [hlog] at hrun
    obtain ⟨own, -, rfl⟩ := Account.after_eq_failure hrun
    simp [Failure.after, moved]
  | some message =>
    rw [hlog] at hrun
    have hfailure : (⟨.raised message, s, c, t.told s target e c⟩ : Failure σ ρ) = failure :=
      Failure.account_inj.mp hrun
    rw [← hfailure, told]
    cases hlogger : t.logger with
    | none => simp [logFailure?, hlogger] at hlog
    | some logger => simp

theorem Ready.call_record_ne_nil (k : t.Ready ds) {request : Request}
    (h : t.breaches s request = [])
    (hrun : t.account ⟨depth, .call request, s, c⟩ = failure.account) : failure.record ≠ [] := by
  cases request with
  | enter target e => exact k.enter_record_ne_nil h (account_enter_iff.mp hrun)
  | step e =>
    rw [account_step_iff] at hrun
    obtain ⟨hs, he⟩ := breaches_step_eq_nil.mp h
    rcases k.cell_cases h with hcell | ⟨⟨i, e', target, override⟩, hrule, hcell, hat⟩
    · rw [k.stepWith_ignored h hcell] at hrun
      exact absurd hrun Failure.account_ne_ok
    · cases override with
      | none =>
        have htarget := (k.target _ (Description.declares_of_rule? hrule).1).2
        rw [stepWith_transition hcell hat, Account.andThen_answer_eq_failure] at hrun
        exact k.enter_record_ne_nil (breaches_enter_eq_nil.mpr ⟨hs, htarget, he⟩) hrun
      | some handler =>
        rw [stepWith_override hcell hat, Account.andThen_answer_eq_failure] at hrun
        obtain ⟨own, -, rfl⟩ := invoke_eq_failure.mp hrun
        simp [Failure.after]

/-- A call fails at once exactly where a number is out of range, and tells the first. -/
theorem Ready.fails_at_once_iff (k : t.Ready ds) {request : Request} {fault : Fault} :
    t.account ⟨depth, .call request, s, c⟩ = (⟨fault, s, c, []⟩ : Failure σ ρ).account ↔
      (t.breaches s request).head? = some fault := by
  constructor
  · intro h
    cases hhead : (t.breaches s request).head? with
    | none => exact absurd rfl (k.call_record_ne_nil (List.head?_eq_none_iff.mp hhead) h)
    | some first =>
      have hfirst : t.account ⟨depth, .call request, s, c⟩ =
          (⟨first, s, c, []⟩ : Failure σ ρ).account := k.fails_of_culprit (.range hhead)
      have hsame := Failure.account_inj.mp (hfirst.symm.trans h)
      exact congrArg some (congrArg Failure.fault hsame)
  · intro h
    exact k.fails_of_culprit (.range h)

/-- A call that fails by itself has done nothing, unless its logger heard of it. -/
theorem Culprit.call_atomic {request : Request}
    (h : t.Culprit ⟨depth, .call request, s, c⟩ failure) :
    failure.state = s ∧ failure.context = c ∧
      (∀ o ∈ failure.record, (∃ message, o = .logged s message) ∨ ∃ note, o = .noted note) ∧
      (t.breaches s request ≠ [] → failure.record = []) := by
  cases h with
  | range h =>
    refine ⟨rfl, rfl, ?_, fun _ => rfl⟩
    intro o ho
    cases ho
  | logger hclear h =>
    refine ⟨rfl, rfl, ?_, fun hbreach => absurd hclear hbreach⟩
    intro o ho
    dsimp only [told] at ho
    cases hlogger : t.logger with
    | none =>
      rw [hlogger] at ho
      cases ho
    | some logger =>
      rw [hlogger] at ho
      rcases List.mem_cons.mp ho with rfl | ho
      · exact .inl ⟨_, rfl⟩
      · obtain ⟨note, -, rfl⟩ := List.mem_map.mp ho
        exact .inr ⟨note, rfl⟩

theorem Ready.fails_iff (k : t.Ready ds) : t.account p = failure.account ↔ t.Blamed p failure := by
  constructor
  · exact k.blamed
  · intro h
    obtain ⟨record, q, own, hreach, hculprit, rfl⟩ := h
    exact k.fails_of_reaches hreach (k.fails_of_culprit hculprit)

end Table

namespace Blueprint
variable {η κ : Type} {b : Blueprint κ} {ds : Description η} {t : Table η κ}

/-- Failing calls are atomic, and nothing else fails. A call fails at once exactly where a number is
out of range, and then it has done nothing. Everything that fails, a call or a handler, has come to
a culprit at some depth, and what was done by then stays. A call that is the culprit leaves state and
context as it found them, and no one but its logger has heard of it. -/
theorem faults_exact (h : (b.build ds).1 = .ok t) (f : η → Handler σ ρ)
    (logger : Option (Logger σ ρ)) :
    (∀ depth request s c fault,
      (t.equip f logger).account ⟨depth, .call request, s, c⟩ =
          (⟨fault, s, c, []⟩ : Failure σ ρ).account ↔
        ((t.equip f logger).breaches s request).head? = some fault) ∧
      (∀ p (failure : Failure σ ρ), (t.equip f logger).account p = failure.account ↔
        ∃ record q own, (t.equip f logger).Reaches p record q ∧
          (t.equip f logger).Culprit q own ∧ failure = own.after record) ∧
      ∀ depth request s c own, (t.equip f logger).Culprit ⟨depth, .call request, s, c⟩ own →
        own.state = s ∧ own.context = c ∧
          (∀ o ∈ own.record, (∃ message, o = .logged s message) ∨ ∃ note, o = .noted note) ∧
          ((t.equip f logger).breaches s request ≠ [] → own.record = []) := by
  have k := ready_of_build h f logger
  exact ⟨fun _ _ _ _ _ => k.fails_at_once_iff, fun _ _ => k.fails_iff,
    fun _ _ _ _ _ => Table.Culprit.call_atomic⟩

/-- An override that enters a state out of range fails the step around it. That it began stays, and
the machine and its context are as they were. -/
theorem turnstile_fault : ∃ t : Table Unit Unit,
    (build ⟨"turnstile", { repeats := .lastWins }, none⟩ turnstile).1 = .ok t ∧
      (t.equip (fun _ => Table.jumpTo ⟨9⟩) (none : Option (Logger Nat Unit))).account
          ⟨1, .call (.step ⟨1⟩), ⟨1⟩, 5⟩ =
        (⟨.stateRange "turnstile" ⟨9⟩ 3, ⟨1⟩, 5, [.began .override ⟨1⟩ ⟨1⟩ 5]⟩ :
          Failure Nat Unit).account := by
  obtain ⟨t, hbuilt, k, hname, -⟩ := turnstile_built (none : Option Unit)
  let jump : Unit → Handler Nat Unit := fun _ => Table.jumpTo ⟨9⟩
  have k' := (ready_of_build hbuilt jump none).toRepresents
  have hcell : (t.equip jump none).cell ⟨1⟩ ⟨1⟩ = .ok (some 7) := by
    rw [k'.cell_eq (by rw [k'.stateLimit]; decide) (by rw [k'.eventLimit]; decide)]
    rfl
  have hat : (t.equip jump none).transitionAt 7 = .ok (⟨2⟩, some (jump ())) :=
    k'.transitionAt_eq (r := ⟨7, ⟨1⟩, ⟨2⟩, some (jump ())⟩) (Description.mem_rules_iff.mpr rfl)
  have hbreach : ((t.equip jump none).breaches ⟨1⟩ (.enter ⟨9⟩ ⟨1⟩)).head? =
      some (.stateRange "turnstile" ⟨9⟩ 3) := by
    have hlimit : (t.equip jump none).stateLimit = 3 := k'.stateLimit
    have hname' : (t.equip jump none).name = "turnstile" := hname
    simp [Table.breaches, Table.stateBreach, hlimit, hname', Number.index]
  refine ⟨t, hbuilt, ((faults_exact hbuilt jump none).2.1 _ _).mpr ?_⟩
  exact ⟨_, _, _, .into (.override hcell hat) (.into (.nested .here rfl) .here), .range hbreach, rfl⟩

end Blueprint
end StateMachine

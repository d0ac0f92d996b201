import StateMachine.Estate
import StateMachine.Proofs.Runs

namespace StateMachine
variable {η κ σ ρ α β γ : Type}

namespace Account
variable (pick : Occurrence σ ρ → Option γ)

/-- What follows adds to a record only if the first has not failed. -/
theorem filterMap_andThen (a : Account σ ρ α) (f : α → StateId → σ → Account σ ρ β) :
    (a.andThen f).record.filterMap pick = a.record.filterMap pick ++
      match a.result with
      | .ok v => (f v a.state a.context).record.filterMap pick
      | .error _ => [] := by
  obtain ⟨result, s, c, record⟩ := a
  cases result with
  | error fault => exact (List.append_nil _).symm
  | ok v => exact List.filterMap_append

/-- An answer put at the end adds nothing. -/
theorem filterMap_answer (a : Account σ ρ α) (g : α → β) {later : List (Occurrence σ ρ)}
    (h : later.filterMap pick = []) :
    (a.andThen fun v s c => ⟨.ok (g v), s, c, later⟩).record.filterMap pick =
      a.record.filterMap pick := by
  rw [filterMap_andThen]
  cases a.result with
  | error fault => exact List.append_nil _
  | ok v => exact (congrArg _ h).trans (List.append_nil _)

end Account

namespace Table
variable {t : Table (Handler σ ρ) (Logger σ ρ)} {ds : Description (Handler σ ρ)}
  {s target : StateId} {e : EventId} {c : σ}

/-- What is picked out of the records of a table can be told from what happens. Nothing is picked of what
happens on no account of a move or a handler: of an event that is ignored, of a state that a handler
sets, and of the marks of handlers, unless it is an entry handler that begins. -/
structure Tells (t : Table (Handler σ ρ) (Logger σ ρ)) (pick : Occurrence σ ρ → Option γ)
    (shown : Happening σ ρ → List γ) : Prop where
  noted : ∀ n, (pick (.noted n)).toList = shown (.noted n)
  failed : ∀ s target e c message, t.logFailure? s target e c = some message →
    (t.told s target e c).filterMap pick = shown (.passed s target e c)
  moved : ∀ s target e c, t.logFailure? s target e c = none →
    (t.moved s target e c).filterMap pick ++
      (match t.entryHandler? target with
        | none => []
        | some _ => (pick (.began .entry target e c)).toList) = shown (.passed s target e c)
  assigned : ∀ s, pick (.assigned s) = none
  ignored : ∀ table state event, pick (.reported (.ignored table state event)) = none
  began : ∀ role, role ≠ .entry → ∀ s e c, pick (.began role s e c) = none
  ended : ∀ role, pick (.ended role) = none

/-- The calls of a handler show what happens in them. -/
def Hears (calls : Calls σ ρ) (inner : Request → StateId → σ → List (Happening σ ρ))
    (pick : Occurrence σ ρ → Option γ) (shown : Happening σ ρ → List γ) : Prop :=
  ∀ request s c, (calls.request request s c).account.record.filterMap pick =
    (inner request s c).flatMap shown

variable {calls : Calls σ ρ} {inner : Request → StateId → σ → List (Happening σ ρ)}
  {pick : Occurrence σ ρ → Option γ} {shown : Happening σ ρ → List γ}

theorem record_request_enter : (calls.request (.enter target e) s c).account.record =
    (calls.enter target e s c).account.record := by
  rw [Calls.account_enter]

theorem record_request_step : (calls.request (.step e) s c).account.record =
    (calls.step e s c).account.record := by
  rw [Calls.account_step]

/-- If that holds of the calls that a handler makes, it holds of the handler. -/
theorem Tells.exec (k : t.Tells pick shown) (h : Hears calls inner pick shown) (r : Routine σ ρ α)
    (s : StateId) (c : σ) :
    (r.exec calls s c).account.record.filterMap pick =
      (r.happenings calls inner s c).flatMap shown := by
  induction r generalizing s c with
  | done a => rfl
  | fail fault => rfl
  | getState rest ih =>
    rw [Routine.exec, Exec.account_bind, Account.filterMap_andThen]
    exact ih s s c
  | setState s' rest ih =>
    rw [Routine.exec, Exec.account_bind, Account.filterMap_andThen, Exec.account_assign,
      List.filterMap_cons_none (k.assigned s')]
    exact ih s' c
  | getContext rest ih =>
    rw [Routine.exec, Exec.account_bind, Account.filterMap_andThen]
    exact ih c s c
  | setContext c' rest ih =>
    rw [Routine.exec, Exec.account_bind, Account.filterMap_andThen]
    exact ih s c'
  | note n rest ih =>
    rw [Routine.exec, Exec.account_bind, Account.filterMap_andThen, Exec.account_tell,
      Routine.happenings, List.flatMap_cons, ← k.noted, ← ih]
    cases hnote : pick (.noted n) <;> simp [hnote]
  | enter target e rest ih =>
    rw [Routine.exec, Exec.account_bind, Account.filterMap_andThen, ← record_request_enter,
      h (.enter target e), Routine.happenings, List.flatMap_append]
    congr 1
    cases hresult : (calls.enter target e s c).result with
    | error fault => simp [Run.account, hresult]
    | ok u => simpa [Run.account, hresult] using ih _ _
  | step e rest ih =>
    rw [Routine.exec, Exec.account_bind, Account.filterMap_andThen, ← record_request_step,
      h (.step e), Routine.happenings, List.flatMap_append]
    congr 1
    cases hresult : (calls.step e s c).result with
    | error fault => simp [Run.account, hresult]
    | ok d => simpa [Run.account, hresult] using ih d _ _

/-- A handler that runs shows that it began, if that is picked, and what it does. -/
theorem Tells.invoke (k : t.Tells pick shown) (h : Hears calls inner pick shown) (role : Role)
    (handler : Handler σ ρ) (e : EventId) (s : StateId) (c : σ) :
    (t.invoke calls role handler e s c).account.record.filterMap pick =
      (pick (.began role s e c)).toList ++
        ((handler t.view e).happenings calls inner s c).flatMap shown := by
  have hended : [Occurrence.ended role].filterMap pick = [] :=
    List.filterMap_cons_none (k.ended role)
  rw [invoke_account, Account.after, List.filterMap_append, Account.filterMap_answer pick _ id hended,
    k.exec h]
  cases hbegan : pick (.began role s e c) <;> simp [hbegan]

theorem Tells.arrive (k : t.Tells pick shown) (h : Hears calls inner pick shown) (target : StateId)
    (e : EventId) (c : σ) :
    (t.arrive calls target e target c).account.record.filterMap pick =
      (match t.entryHandler? target with
        | none => []
        | some _ => (pick (.began .entry target e c)).toList) ++
      (match t.entryHandler? target with
        | none => []
        | some handler => (handler t.view e).happenings calls inner target c).flatMap shown := by
  cases hentry : t.entryHandler? target with
  | none =>
    rw [arrive_none hentry]
    rfl
  | some handler =>
    rw [arrive_some hentry]
    exact k.invoke h .entry handler e target c

/-- A move is shown, and then all that happens on entry. -/
theorem Tells.entering (k : t.Tells pick shown) (hds : t.Represents ds)
    (h : Hears calls inner pick shown) (target : StateId) (e : EventId) (s : StateId) (c : σ) :
    (t.enterWith calls target e s c).account.record.filterMap pick =
      (t.entering calls inner target e s c).flatMap shown := by
  unfold Table.entering
  cases hbreach : (t.breaches s (.enter target e)).head? with
  | some fault =>
    rw [enterWith_breach hbreach, if_neg]
    · rfl
    · intro hclear
      rw [hclear] at hbreach
      cases hbreach
  | none =>
    have hclear := List.head?_eq_none_iff.mp hbreach
    rw [hds.enterWith_clear hclear, if_pos hclear, List.flatMap_cons]
    cases hlog : t.logFailure? s target e c with
    | some message => exact (k.failed s target e c message hlog).trans (List.append_nil _).symm
    | none =>
      dsimp only
      rw [Account.after, List.filterMap_append, k.arrive h, ← k.moved s target e c hlog,
        List.append_assoc]
      cases t.entryHandler? target <;> rfl

theorem Tells.stepping (k : t.Tells pick shown) (hds : t.Represents ds)
    (h : Hears calls inner pick shown) (e : EventId) (s : StateId) (c : σ) :
    (t.stepWith calls e s c).account.record.filterMap pick =
      (t.stepping calls inner e s c).flatMap shown := by
  unfold Table.stepping
  cases hbreach : (t.breaches s (.step e)).head? with
  | some fault =>
    rw [stepWith_breach hbreach, cell_breach hbreach]
    rfl
  | none =>
    have hclear := List.head?_eq_none_iff.mp hbreach
    rcases hds.cell_cases hclear with hcell | ⟨r, -, hcell, hat⟩
    · rw [hds.stepWith_ignored hclear hcell, hcell]
      exact List.filterMap_cons_none (k.ignored _ _ _)
    · obtain ⟨i, event, target, override⟩ := r
      cases override with
      | none =>
        rw [stepWith_transition hcell hat, hcell]
        dsimp only
        rw [hat]
        exact (Account.filterMap_answer pick _ (fun _ => Outcome.entered target) rfl).trans
          (k.entering hds h target e s c)
      | some handler =>
        have hinvoke := k.invoke h .override handler e s c
        rw [k.began .override (by decide), Option.toList_none, List.nil_append] at hinvoke
        rw [stepWith_override hcell hat, hcell]
        dsimp only
        rw [hat]
        exact (Account.filterMap_answer pick _ (fun _ => Outcome.handled) rfl).trans hinvoke

theorem Tells.hears (k : t.Tells pick shown) (hds : t.Represents ds) (depth : Nat) :
    Hears (t.calls depth) (t.nested depth) pick shown := by
  induction depth with
  | zero =>
    intro request s c
    cases request <;> rfl
  | succ depth ih =>
    intro request s c
    cases request with
    | enter target e =>
      rw [record_request_enter]
      exact k.entering hds ih target e s c
    | step e =>
      rw [record_request_step]
      exact k.stepping hds ih e s c

/-- A work shows what happens in its course. If it is a handler by itself, that it began must not be
picked, since there is no move before it. -/
theorem Tells.account (k : t.Tells pick shown) (hds : t.Represents ds) (p : Start σ ρ)
    (hp : ∀ role handler e, p.work = .handle role handler e → ∀ s c, pick (.began role s e c) = none) :
    (t.account p).record.filterMap pick = (t.happenings p).flatMap shown := by
  obtain ⟨depth, work, s, c⟩ := p
  cases work with
  | call request => exact k.hears hds (depth + 1) request s c
  | handle role handler e =>
    have hinvoke := k.invoke (k.hears hds depth) role handler e s c
    rw [hp role handler e rfl s c, Option.toList_none, List.nil_append] at hinvoke
    rw [Table.account, perform, Exec.account_bind]
    exact (Account.filterMap_answer pick _ (fun _ => none) rfl).trans hinvoke

end Table

/-- The notes in a record. -/
def notes (record : List (Occurrence σ ρ)) : List ρ :=
  record.filterMap fun
    | .noted note => some note
    | _ => none

@[simp] theorem notes_append (earlier later : List (Occurrence σ ρ)) :
    notes (earlier ++ later) = notes earlier ++ notes later := List.filterMap_append

theorem notes_noted (left : List ρ) : notes (left.map .noted : List (Occurrence σ ρ)) = left := by
  rw [notes, List.filterMap_map]
  exact List.filterMap_some

namespace Table
variable {t : Table (Handler σ ρ) (Logger σ ρ)} {ds : Description (Handler σ ρ)}
  {s target : StateId} {e : EventId} {c : σ}

/-- What is noted when something happens. -/
def noted (t : Table (Handler σ ρ) (Logger σ ρ)) : Happening σ ρ → List ρ
  | .passed s target e c =>
    match t.logger with
    | none => []
    | some logger => (logger c (t.announcement s target e)).notes
  | .noted note => [note]

theorem notes_told : notes (t.told s target e c) = t.noted (.passed s target e c) := by
  rw [told, noted]
  cases t.logger with
  | none => rfl
  | some logger => exact notes_noted _

theorem notes_moved : notes (t.moved s target e c) = t.noted (.passed s target e c) := by
  rw [moved, notes_append, notes_told]
  exact List.append_nil _

/-- A logger notes at every move what it notes of its message, a handler notes what it does, and there
are no other notes. -/
theorem Represents.notes_eq (k : t.Represents ds) (p : Start σ ρ) :
    notes (t.account p).record = (t.happenings p).flatMap t.noted := by
  refine Tells.account ⟨fun _ => rfl, fun _ _ _ _ _ _ => notes_told, ?_, fun _ => rfl,
    fun _ _ _ => rfl, fun _ _ _ _ _ => rfl, fun _ => rfl⟩ k p fun _ _ _ _ _ _ => rfl
  intro s target e c _
  cases t.entryHandler? target <;> exact (List.append_nil _).trans notes_moved

end Table

namespace Routine
variable {calls : Calls σ ρ} {inner : Request → StateId → σ → List (Happening σ ρ)}
  {r rest : Routine σ ρ α} {s s' target : StateId} {e : EventId} {c c' : σ}
  {record made : List (Occurrence σ ρ)} {request : Request}

theorem account_of_result {run : Run σ ρ β} {v : β} (h : run.result = .ok v) :
    run.account = ⟨.ok v, run.state, run.context, run.record⟩ := by
  rw [Run.account, h]

theorem happenings_enter (hcall : (calls.enter target e s c).account = ⟨.ok (), s', c', made⟩) :
    (Routine.enter target e r).happenings calls inner s c =
      inner (.enter target e) s c ++ r.happenings calls inner s' c' := by
  obtain ⟨hresult, hstate, hcontext, -⟩ := Account.mk.inj hcall
  simp only [happenings, hresult, hstate, hcontext]

theorem happenings_step {next : Outcome → Routine σ ρ α} {d : Outcome}
    (hcall : (calls.step e s c).account = ⟨.ok d, s', c', made⟩) :
    (Routine.step e next).happenings calls inner s c =
      inner (.step e) s c ++ (next d).happenings calls inner s' c' := by
  obtain ⟨hresult, hstate, hcontext, -⟩ := Account.mk.inj hcall
  simp only [happenings, hresult, hstate, hcontext]

/-- What happens from some place on happens in the course of the whole handler. -/
theorem Reaches.happenings_subset (h : r.Reaches calls s c record rest s' c') :
    rest.happenings calls inner s' c' ⊆ r.happenings calls inner s c := by
  induction h with
  | here => exact List.Subset.refl _
  | getState _ ih => exact ih
  | setState _ ih => exact ih
  | getContext _ ih => exact ih
  | setContext _ ih => exact ih
  | note _ ih => exact List.subset_cons_of_subset _ ih
  | enter hcall _ ih =>
    rw [happenings_enter hcall]
    exact List.subset_append_of_subset_right _ ih
  | step hcall _ ih =>
    rw [happenings_step hcall]
    exact List.subset_append_of_subset_right _ ih

theorem subset_of_request (h : r.request? = some request) :
    inner request s c ⊆ r.happenings calls inner s c := by
  cases r with
  | enter target e rest =>
    obtain rfl := Option.some.inj h
    exact List.subset_append_left _ _
  | step e rest =>
    obtain rfl := Option.some.inj h
    rw [happenings]
    exact List.subset_append_left _ _
  | _ => cases h

/-- Where something happens that is next to happen: a note that the handler leaves, or something in
a call that it makes. -/
def Happens (inner : Request → StateId → σ → List (Happening σ ρ)) (x : Happening σ ρ)
    (r : Routine σ ρ α) (s : StateId) (c : σ) : Prop :=
  (∃ note rest, r = .note note rest ∧ x = .noted note) ∨
    ∃ request, r.request? = some request ∧ x ∈ inner request s c

theorem mem_happenings {x : Happening σ ρ} (h : x ∈ r.happenings calls inner s c) :
    ∃ record rest s' c', r.Reaches calls s c record rest s' c' ∧ Happens inner x rest s' c' := by
  induction r generalizing s c with
  | done a => cases h
  | fail fault => cases h
  | getState rest ih =>
    obtain ⟨record, rest', s', c', hreach, hx⟩ := ih s h
    exact ⟨record, rest', s', c', .getState hreach, hx⟩
  | setState s₁ rest ih =>
    obtain ⟨record, rest', s', c', hreach, hx⟩ := ih h
    exact ⟨_, rest', s', c', .setState hreach, hx⟩
  | getContext rest ih =>
    obtain ⟨record, rest', s', c', hreach, hx⟩ := ih c h
    exact ⟨record, rest', s', c', .getContext hreach, hx⟩
  | setContext c₁ rest ih =>
    obtain ⟨record, rest', s', c', hreach, hx⟩ := ih h
    exact ⟨record, rest', s', c', .setContext hreach, hx⟩
  | note n rest ih =>
    rcases List.mem_cons.mp h with rfl | h
    · exact ⟨[], _, s, c, .here, .inl ⟨n, rest, rfl, rfl⟩⟩
    · obtain ⟨record, rest', s', c', hreach, hx⟩ := ih h
      exact ⟨_, rest', s', c', .note hreach, hx⟩
  | enter target e rest ih =>
    rcases List.mem_append.mp h with h | h
    · exact ⟨[], _, s, c, .here, .inr ⟨.enter target e, rfl, h⟩⟩
    · cases hresult : (calls.enter target e s c).result with
      | error fault =>
        simp only [hresult] at h
        cases h
      | ok u =>
        simp only [hresult] at h
        obtain ⟨record, rest', s', c', hreach, hx⟩ := ih h
        exact ⟨_, rest', s', c', .enter (account_of_result hresult) hreach, hx⟩
  | step e rest ih =>
    rw [happenings] at h
    rcases List.mem_append.mp h with h | h
    · exact ⟨[], _, s, c, .here, .inr ⟨.step e, rfl, h⟩⟩
    · cases hresult : (calls.step e s c).result with
      | error fault =>
        simp only [hresult] at h
        cases h
      | ok d =>
        simp only [hresult] at h
        obtain ⟨record, rest', s', c', hreach, hx⟩ := ih d h
        exact ⟨_, rest', s', c', .step (account_of_result hresult) hreach, hx⟩

end Routine

namespace Table
variable {t : Table (Handler σ ρ) (Logger σ ρ)} {ds : Description (Handler σ ρ)} {p q : Start σ ρ}
  {record : List (Occurrence σ ρ)} {x : Happening σ ρ}

theorem Leads.happenings_subset (h : t.Leads p record q) : t.happenings q ⊆ t.happenings p := by
  cases h with
  | override hcell hat =>
    simp only [happenings, Table.nested, stepping, hcell, hat]
    exact List.Subset.refl _
  | transition hcell hat =>
    simp only [happenings, Table.nested, stepping, hcell, hat]
    exact List.Subset.refl _
  | arrival hclear hlog hentry =>
    simp only [happenings, Table.nested, Table.entering, hclear, hlog, hentry, if_true]
    exact List.subset_cons_self _ _
  | nested hreach hrequest =>
    exact List.Subset.trans (Routine.subset_of_request hrequest) hreach.happenings_subset

theorem Reaches.happenings_subset (h : t.Reaches p record q) : t.happenings q ⊆ t.happenings p := by
  induction h with
  | here => exact List.Subset.refl _
  | into h _ ih => exact List.Subset.trans ih h.happenings_subset

/-- Where something happens in the course of a work: a call to enter a state that finds its numbers in
range, or a handler that comes to a note. -/
def Happens (t : Table (Handler σ ρ) (Logger σ ρ)) (p : Start σ ρ) : Happening σ ρ → Prop
  | .passed s target e c => ∃ record depth,
    t.Reaches p record ⟨depth, .call (.enter target e), s, c⟩ ∧ t.breaches s (.enter target e) = []
  | .noted note => ∃ record depth role handler e s c earlier rest s' c',
    t.Reaches p record ⟨depth, .handle role handler e, s, c⟩ ∧
      ((handler : Handler σ ρ) t.view e).Reaches (t.calls depth) s c earlier (.note note rest) s' c'

theorem Happens.into (h : t.Happens q x) (hlead : t.Leads p record q) : t.Happens p x := by
  cases x with
  | passed s target e c =>
    obtain ⟨later, depth, hreach, hclear⟩ := h
    exact ⟨_, depth, .into hlead hreach, hclear⟩
  | noted note =>
    obtain ⟨later, depth, role, handler, e, s, c, earlier, rest, s', c', hreach, hnote⟩ := h
    exact ⟨_, depth, role, handler, e, s, c, earlier, rest, s', c', .into hlead hreach, hnote⟩

section
variable {depth : Nat} (hcalls : ∀ n, depth = n + 1 → ∀ request s c,
  x ∈ t.nested (n + 1) request s c → t.Happens ⟨n, .call request, s, c⟩ x)
  {handler : Handler σ ρ} {target : StateId} {e : EventId} {s : StateId} {c : σ}
include hcalls

theorem happens_of_handler (role : Role)
    (h : x ∈ (handler t.view e).happenings (t.calls depth) (t.nested depth) s c) :
    t.Happens ⟨depth, .handle role handler e, s, c⟩ x := by
  obtain ⟨record, rest, s', c', hreach, hx⟩ := Routine.mem_happenings h
  rcases hx with ⟨note, rest', rfl, rfl⟩ | ⟨request, hrequest, hx⟩
  · exact ⟨[], depth, role, handler, e, s, c, record, rest', s', c', .here, hreach⟩
  · cases depth with
    | zero => cases hx
    | succ n => exact (hcalls n rfl request s' c' hx).into (.nested hreach hrequest)

theorem happens_of_entering
    (h : x ∈ t.entering (t.calls depth) (t.nested depth) target e s c) :
    t.Happens ⟨depth, .call (.enter target e), s, c⟩ x := by
  unfold Table.entering at h
  by_cases hclear : t.breaches s (.enter target e) = []
  · rw [if_pos hclear] at h
    rcases List.mem_cons.mp h with rfl | h
    · exact ⟨[], depth, .here, hclear⟩
    · cases hlog : t.logFailure? s target e c with
      | some message =>
        rw [hlog] at h
        cases h
      | none =>
        cases hentry : t.entryHandler? target with
        | none =>
          rw [hlog, hentry] at h
          cases h
        | some handler =>
          rw [hlog, hentry] at h
          exact (happens_of_handler hcalls .entry h).into (.arrival hclear hlog hentry)
  · rw [if_neg hclear] at h
    cases h

theorem happens_of_stepping (h : x ∈ t.stepping (t.calls depth) (t.nested depth) e s c) :
    t.Happens ⟨depth, .call (.step e), s, c⟩ x := by
  unfold Table.stepping at h
  split at h
  · split at h
    · exact (happens_of_handler hcalls .override h).into (.override ‹_› ‹_›)
    · exact (happens_of_entering hcalls h).into (.transition ‹_› ‹_›)
    · cases h
  · cases h

end

theorem happens_of_call (depth : Nat) (request : Request) (s : StateId) (c : σ)
    (h : x ∈ t.nested (depth + 1) request s c) : t.Happens ⟨depth, .call request, s, c⟩ x := by
  induction depth generalizing request s c with
  | zero =>
    cases request with
    | enter target e => exact happens_of_entering (fun n hn => by cases hn) h
    | step e => exact happens_of_stepping (fun n hn => by cases hn) h
  | succ depth ih =>
    have hcalls : ∀ n, depth + 1 = n + 1 → ∀ request s c, x ∈ t.nested (n + 1) request s c →
        t.Happens ⟨n, .call request, s, c⟩ x := by
      intro n hn
      obtain rfl := Nat.succ.inj hn
      exact ih
    cases request with
    | enter target e => exact happens_of_entering hcalls h
    | step e => exact happens_of_stepping hcalls h

/-- What is told of a work is what happens in its course, and all of it. -/
theorem mem_happenings_iff (t : Table (Handler σ ρ) (Logger σ ρ)) (p : Start σ ρ)
    (x : Happening σ ρ) : x ∈ t.happenings p ↔ t.Happens p x := by
  constructor
  · intro h
    obtain ⟨depth, work, s, c⟩ := p
    cases work with
    | call request => exact happens_of_call depth request s c h
    | handle role handler e =>
      refine happens_of_handler ?_ role h
      intro n _ request s c
      exact happens_of_call n request s c
  · intro h
    cases x with
    | passed s target e c =>
      obtain ⟨record, depth, hreach, hclear⟩ := h
      apply hreach.happenings_subset
      simp only [happenings, Table.nested, Table.entering, hclear, if_true]
      exact List.mem_cons_self
    | noted note =>
      obtain ⟨record, depth, role, handler, e, s, c, earlier, rest, s', c', hreach, hnote⟩ := h
      apply hreach.happenings_subset
      apply hnote.happenings_subset
      exact List.mem_cons_self

end Table
end StateMachine

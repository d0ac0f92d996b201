import StateMachine.Course
import StateMachine.Proofs.Congruence
import StateMachine.Proofs.Interpretation

namespace StateMachine
variable {σ ρ α β γ : Type}

@[simp] theorem notices_append (earlier later : List (Occurrence σ ρ)) :
    notices (earlier ++ later) = notices earlier ++ notices later := List.filterMap_append

theorem notices_noted (notes : List ρ) :
    notices (notes.map .noted : List (Occurrence σ ρ)) = [] := by
  rw [notices, List.filterMap_map]
  exact List.filterMap_eq_nil_iff.mpr fun _ _ => rfl

namespace Account

@[simp] theorem after_mk (result : Except Fault α) (s : StateId) (c : σ)
    (earlier record : List (Occurrence σ ρ)) :
    (⟨result, s, c, record⟩ : Account σ ρ α).after earlier =
      ⟨result, s, c, earlier ++ record⟩ := rfl

@[simp] theorem after_nil (a : Account σ ρ α) : a.after [] = a := rfl

@[simp] theorem after_after (a : Account σ ρ α) (earlier later : List (Occurrence σ ρ)) :
    (a.after later).after earlier = a.after (earlier ++ later) := by
  simp only [after, List.append_assoc]

@[simp] theorem andThen_ok (v : α) (s : StateId) (c : σ) (record : List (Occurrence σ ρ))
    (f : α → StateId → σ → Account σ ρ β) :
    (⟨.ok v, s, c, record⟩ : Account σ ρ α).andThen f = (f v s c).after record := rfl

@[simp] theorem andThen_error (fault : Fault) (s : StateId) (c : σ)
    (record : List (Occurrence σ ρ)) (f : α → StateId → σ → Account σ ρ β) :
    (⟨.error fault, s, c, record⟩ : Account σ ρ α).andThen f =
      ⟨.error fault, s, c, record⟩ := rfl

end Account

namespace Exec

@[simp] theorem account_bind (x : Exec σ ρ α) (f : α → Exec σ ρ β) (s : StateId) (c : σ) :
    ((x >>= f) s c).account = (x s c).account.andThen fun a s c => (f a s c).account := by
  change (Exec.bind x f s c).account = _
  unfold Exec.bind
  obtain ⟨_ | _, s', c', trail⟩ := x s c
  · rfl
  · simp only [Run.account, Run.record, Trail.toList_append, Account.andThen_ok, Account.after]

@[simp] theorem account_pure (a : α) (s : StateId) (c : σ) :
    ((pure a : Exec σ ρ α) s c).account = ⟨.ok a, s, c, []⟩ := rfl

@[simp] theorem account_lift (r : Except Fault α) (s : StateId) (c : σ) :
    ((lift r : Exec σ ρ α) s c).account = ⟨r, s, c, []⟩ := rfl

@[simp] theorem account_fail (fault : Fault) (s : StateId) (c : σ) :
    ((fail fault : Exec σ ρ α) s c).account = ⟨.error fault, s, c, []⟩ := rfl

@[simp] theorem account_state (s : StateId) (c : σ) :
    ((state : Exec σ ρ StateId) s c).account = ⟨.ok s, s, c, []⟩ := rfl

@[simp] theorem account_context (s : StateId) (c : σ) :
    ((context : Exec σ ρ σ) s c).account = ⟨.ok c, s, c, []⟩ := rfl

@[simp] theorem account_tell (o : Occurrence σ ρ) (s : StateId) (c : σ) :
    ((tell o : Exec σ ρ Unit) s c).account = ⟨.ok (), s, c, [o]⟩ := by
  simp [Run.account, Run.record, tell]

@[simp] theorem account_assign (s' s : StateId) (c : σ) :
    ((assign s' : Exec σ ρ Unit) s c).account = ⟨.ok (), s', c, [.assigned s']⟩ := by
  simp [Run.account, Run.record, assign]

@[simp] theorem account_setContext (c' : σ) (s : StateId) (c : σ) :
    ((setContext c' : Exec σ ρ Unit) s c).account = ⟨.ok (), s, c', []⟩ := rfl

theorem account_log (entry : LogEntry ρ) (s : StateId) (c : σ) :
    ((log entry : Exec σ ρ Unit) s c).account =
      ⟨match entry.failure with
        | none => .ok ()
        | some message => .error (.raised message), s, c, entry.notes.map .noted⟩ := by
  have hrecord : (log entry s c : Run σ ρ Unit).record = entry.notes.map .noted :=
    Trail.toList_items _
  rw [Run.account, hrecord]
  rfl

/-- An answer put at the end changes nothing else. -/
theorem account_answer (call : Exec σ ρ α) (g : α → β) (s : StateId) (c : σ) :
    ((call >>= fun a => pure (g a)) s c).account =
      ⟨(call s c).result.map g, (call s c).state, (call s c).context, (call s c).record⟩ := by
  rw [account_bind]
  unfold Run.account
  cases (call s c).result with
  | error fault => rfl
  | ok a => exact congrArg _ (List.append_nil _)

end Exec

namespace Calls
variable (calls : Calls σ ρ)

theorem account_step (e : EventId) (s : StateId) (c : σ) :
    (calls.request (.step e) s c).account =
      let a := (calls.step e s c).account
      ⟨a.result.map some, a.state, a.context, a.record⟩ := by
  rw [request, Exec.account_answer]
  rfl

theorem account_enter (target : StateId) (e : EventId) (s : StateId) (c : σ) :
    (calls.request (.enter target e) s c).account =
      let a := (calls.enter target e s c).account
      ⟨a.result.map fun _ => none, a.state, a.context, a.record⟩ := by
  rw [request, Exec.account_answer]
  rfl

/-- A turn shows the account of its call, and leaves what the call leaves. -/
theorem respond_eq (holdings : Holdings σ) (turn : Turn) :
    calls.respond holdings turn =
      let a := (calls.request turn.request (holdings.machines turn.machine)
        (holdings.contexts turn.context)).account
      ⟨a.result, a.record, holdings.put turn.machine turn.context a.state a.context⟩ := by
  obtain ⟨machine, context, request⟩ := turn
  cases request with
  | step e =>
    rw [account_step]
    rfl
  | enter target e =>
    rw [account_enter]
    rfl

end Calls

namespace Table
variable {t : Table (Handler σ ρ) (Logger σ ρ)} {ds : Description (Handler σ ρ)}
  {calls : Calls σ ρ} {rest : Exec σ ρ Unit} {s target : StateId} {e : EventId} {c : σ}
  {fault : Fault}

theorem breaches_step_eq_nil :
    t.breaches s (.step e) = [] ↔ s.index < t.stateLimit ∧ e.index < t.eventLimit := by
  simp [breaches, stateBreach, eventBreach]

theorem breaches_enter_eq_nil :
    t.breaches s (.enter target e) = [] ↔
      s.index < t.stateLimit ∧ target.index < t.stateLimit ∧ e.index < t.eventLimit := by
  simp [breaches, stateBreach, eventBreach]

theorem Represents.stateText_eq (k : t.Represents ds) (hs : s.index < t.stateLimit) :
    t.stateText s = ds.nameOf s := by
  simp [stateText, stateName?, k.states s hs]

theorem Represents.eventText_eq (k : t.Represents ds) (he : e.index < t.eventLimit) :
    t.eventText e = ds.nameOf e := by
  simp [eventText, eventName?, k.events e he]

/-- Nothing is done with a number out of range. The first one is told. -/
theorem moveThen_breach (h : (t.breaches s (.enter target e)).head? = some fault) :
    (t.moveThen target e rest s c).account = ⟨.error fault, s, c, []⟩ := by
  unfold breaches stateBreach eventBreach at h
  by_cases hs : s.index < t.stateLimit
  · by_cases ht : target.index < t.stateLimit
    · by_cases he : e.index < t.eventLimit
      · simp [hs, ht, he] at h
      · simp only [hs, ht, he, if_true, if_false, List.nil_append, List.head?_cons,
          Option.some.injEq] at h
        simp [moveThen, checkState, checkEvent, hs, ht, he, h]
    · simp only [hs, ht, if_true, if_false, List.nil_append, List.cons_append, List.head?_cons,
        Option.some.injEq] at h
      simp [moveThen, checkState, hs, ht, h]
  · simp only [hs, if_false, List.cons_append, List.head?_cons, Option.some.injEq] at h
    simp [moveThen, checkState, hs, h]

theorem enterWith_breach (h : (t.breaches s (.enter target e)).head? = some fault) :
    (t.enterWith calls target e s c).account = ⟨.error fault, s, c, []⟩ := by
  rw [enterWith_eq]
  exact moveThen_breach h

theorem cell_breach (h : (t.breaches s (.step e)).head? = some fault) :
    t.cell s e = .error fault := by
  unfold breaches stateBreach eventBreach at h
  by_cases hs : s.index < t.stateLimit
  · by_cases he : e.index < t.eventLimit
    · simp [hs, he] at h
    · simp only [hs, he, if_true, if_false, List.nil_append, List.head?_cons,
        Option.some.injEq] at h
      rw [cell, checkState, if_pos hs, checkEvent, if_neg he, h]
      rfl
  · simp only [hs, if_false, List.cons_append, List.head?_cons, Option.some.injEq] at h
    rw [cell, checkState, if_neg hs, h]
    rfl

theorem stepWith_breach (h : (t.breaches s (.step e)).head? = some fault) :
    (t.stepWith calls e s c).account = ⟨.error fault, s, c, []⟩ := by
  simp [stepWith, cell_breach h]

theorem notify_account (s : StateId) (c : σ) (message : String) :
    (t.notify message s c).account =
      match t.logger with
      | none => ⟨.ok (), s, c, []⟩
      | some logger =>
        ⟨match (logger c message).failure with
          | none => .ok ()
          | some message => .error (.raised message), s, c,
          .logged s message :: (logger c message).notes.map .noted⟩ := by
  unfold notify Exec.notify
  cases t.logger with
  | none => rfl
  | some logger => simp [Exec.account_log]

/-- A move with all numbers in range fails only if the logger does. -/
theorem Represents.moveThen_clear (k : t.Represents ds)
    (h : t.breaches s (.enter target e) = []) :
    (t.moveThen target e rest s c).account =
      match t.logFailure? s target e c with
      | some message => ⟨.error (.raised message), s, c, t.told s target e c⟩
      | none => (rest target c).account.after (t.moved s target e c) := by
  obtain ⟨hs, ht, he⟩ := breaches_enter_eq_nil.mp h
  have hmessage : t.announcement s target e =
      s!"event {ds.nameOf e} state {ds.nameOf s} -> {ds.nameOf target}" := by
    rw [announcement, k.stateText_eq hs, k.stateText_eq ht, k.eventText_eq he]
  have hnotice : t.departure s target e =
      .entered t.name (ds.nameOf e) (ds.nameOf s) (ds.nameOf target) := by
    rw [departure, k.stateText_eq hs, k.stateText_eq ht, k.eventText_eq he]
  simp only [moveThen, checkState, checkEvent, if_pos hs, if_pos ht, if_pos he,
    k.eventName_eq he, k.stateName_eq hs, k.stateName_eq ht, ← hmessage, ← hnotice,
    Exec.account_bind, Exec.account_state, Exec.account_lift, Account.andThen_ok,
    Account.after_nil, notify_account, logFailure?, told, moved]
  cases t.logger with
  | none => simp
  | some logger => cases hfail : (logger c (t.announcement s target e)).failure <;> simp [hfail]

theorem Represents.enterWith_clear (k : t.Represents ds)
    (h : t.breaches s (.enter target e) = []) :
    (t.enterWith calls target e s c).account =
      match t.logFailure? s target e c with
      | some message => ⟨.error (.raised message), s, c, t.told s target e c⟩
      | none => (t.arrive calls target e target c).account.after (t.moved s target e c) := by
  rw [enterWith_eq]
  exact k.moveThen_clear h

theorem invoke_account (role : Role) (handler : Handler σ ρ) (e : EventId) :
    (t.invoke calls role handler e s c).account =
      (((handler t.view e).exec calls s c).account.andThen fun _ s c =>
        ⟨.ok (), s, c, [.ended role]⟩).after [.began role s e c] := by
  simp [invoke, Exec.invoke]

/-- A step finds nothing, or the line of the transition of the pair. -/
theorem Represents.cell_cases (k : t.Represents ds) (h : t.breaches s (.step e) = []) :
    t.cell s e = .ok none ∨ ∃ r, ds.rule? s e = some r ∧ t.cell s e = .ok (some r.position) ∧
      t.transitionAt r.position = .ok (r.target, r.handler) := by
  obtain ⟨hs, he⟩ := breaches_step_eq_nil.mp h
  rw [k.cell_eq hs he]
  cases hr : ds.rule? s e with
  | none => exact .inl rfl
  | some r => exact .inr ⟨r, rfl, rfl, k.transitionAt_eq (Description.declares_of_rule? hr).1⟩

theorem Represents.stepWith_ignored (k : t.Represents ds) (h : t.breaches s (.step e) = [])
    (hcell : t.cell s e = .ok none) :
    (t.stepWith calls e s c).account =
      ⟨.ok .ignored, s, c, [.reported (.ignored t.name (t.stateText s) (t.eventText e))]⟩ := by
  obtain ⟨hs, he⟩ := breaches_step_eq_nil.mp h
  simp [stepWith, hcell, k.stateName_eq hs, k.eventName_eq he, k.stateText_eq hs,
    k.eventText_eq he]

theorem stepWith_override {i : Nat} {handler : Handler σ ρ} (hcell : t.cell s e = .ok (some i))
    (hat : t.transitionAt i = .ok (target, some handler)) :
    (t.stepWith calls e s c).account =
      (t.invoke calls .override handler e s c).account.andThen fun _ s c =>
        ⟨.ok .handled, s, c, []⟩ := by
  simp [stepWith, hcell, hat]

theorem stepWith_transition {i : Nat} (hcell : t.cell s e = .ok (some i))
    (hat : t.transitionAt i = .ok (target, none)) :
    (t.stepWith calls e s c).account =
      (t.enterWith calls target e s c).account.andThen fun _ s c =>
        ⟨.ok (.entered target), s, c, []⟩ := by
  simp [stepWith, hcell, hat]

/-- A handler that does nothing but enter a state. -/
def jumpTo (target : StateId) : Handler σ ρ := fun _ e => .enter target e (.done ())

/-- What a built table brings to its work, whatever handlers it is given and whatever logger. -/
structure Ready (t : Table (Handler σ ρ) (Logger σ ρ)) (ds : Description (Handler σ ρ)) :
    Prop extends t.Represents ds where
  target : ∀ r ∈ ds.rules, r.target.isReserved = false ∧ r.target.index < t.stateLimit

end Table

namespace Blueprint
variable {η κ : Type} {b : Blueprint κ} {ds : Description η} {t : Table η κ}

theorem ready_of_build (h : (b.build ds).1 = .ok t) (f : η → Handler σ ρ)
    (logger : Option (Logger σ ρ)) : (t.equip f logger).Ready (ds.map (Line.map f)) := by
  obtain ⟨hlawful, k, -, -⟩ := represents_of_build h
  have hlimit := k.stateLimit
  have k' := k.map f fun _ => (fun _ _ => {} : Logger σ ρ)
  refine ⟨⟨k'.lines, k'.stateLimit, k'.eventLimit, k'.cells_size, k'.cells, k'.states_size,
    k'.states, k'.events_size, k'.events⟩, ?_⟩
  intro r hr
  rw [Description.rules_map] at hr
  obtain ⟨r₀, hr₀, rfl⟩ := List.mem_map.mp hr
  obtain ⟨hreserved, hle⟩ := hlawful.target r₀ hr₀
  refine ⟨hreserved, ?_⟩
  change r₀.target.index < t.stateLimit
  omega

end Blueprint
end StateMachine

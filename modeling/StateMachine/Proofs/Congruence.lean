import StateMachine.Table.Step

namespace StateMachine
variable {σ ρ α : Type}

/-- What belongs to a move, and to nothing else that a table does. -/
def Occurrence.ofMove : Occurrence σ ρ → Bool
  | .logged .. | .assigned _ | .reported (.entered ..) => true
  | _ => false

/-- Somewhere in what a handler may do, it sets the state by itself. -/
inductive Routine.Assigns (s : StateId) : Routine σ ρ α → Prop where
  | here {rest} : Assigns s (.setState s rest)
  | getState {rest s'} (h : Assigns s (rest s')) : Assigns s (.getState rest)
  | setState {s' rest} (h : Assigns s rest) : Assigns s (.setState s' rest)
  | getContext {rest c} (h : Assigns s (rest c)) : Assigns s (.getContext rest)
  | setContext {c rest} (h : Assigns s rest) : Assigns s (.setContext c rest)
  | note {n rest} (h : Assigns s rest) : Assigns s (.note n rest)
  | enter {target e rest} (h : Assigns s rest) : Assigns s (.enter target e rest)
  | step {e rest d} (h : Assigns s (rest d)) : Assigns s (.step e rest)

/-- A relation between calls that holds of two in a row when it holds of both, and of everything
that is done one by one apart from moves. -/
structure Exec.Congruence (R : (α : Type) → Exec σ ρ α → Exec σ ρ α → Prop) : Prop where
  bind {α β : Type} {x y : Exec σ ρ α} {f g : α → Exec σ ρ β} (h : R α x y)
    (hf : ∀ a, R β (f a) (g a)) : R β (x >>= f) (y >>= g)
  lift {α : Type} (r : Except Fault α) : R α (.lift r) (.lift r)
  state : R StateId .state .state
  context : R σ .context .context
  setContext (c : σ) : R Unit (.setContext c) (.setContext c)
  tell {o : Occurrence σ ρ} (h : o.ofMove = false) : R Unit (.tell o) (.tell o)

structure Calls.Related (R : (α : Type) → Exec σ ρ α → Exec σ ρ α → Prop)
    (calls calls' : Calls σ ρ) : Prop where
  enter (target : StateId) (e : EventId) :
    R Unit (calls.enter target e) (calls'.enter target e)
  step (e : EventId) : R Outcome (calls.step e) (calls'.step e)

variable {R : (α : Type) → Exec σ ρ α → Exec σ ρ α → Prop} {calls calls' : Calls σ ρ}

/-- Of a view nothing counts but what the handler makes of it. -/
theorem Exec.invoke_congr {view view' : View} {handler : Handler σ ρ}
    (h : handler view = handler view') (role : Role) (e : EventId) :
    Exec.invoke view calls role handler e = Exec.invoke view' calls role handler e := by
  rw [Exec.invoke, Exec.invoke, h]

namespace Exec.Congruence

/-- What follows a check matters only where the check passed. -/
theorem lift_bind {β : Type} (k : Congruence R) {r : Except Fault α} {f g : α → Exec σ ρ β}
    (h : ∀ a, r = .ok a → R β (f a) (g a)) : R β (Exec.lift r >>= f) (Exec.lift r >>= g) := by
  cases r with
  | error fault => exact k.lift (.error fault)
  | ok a => exact h a rfl

theorem exec (k : Congruence R) (hcalls : calls.Related R calls') {r : Routine σ ρ α}
    (hassign : ∀ s, r.Assigns s → R Unit (.assign s) (.assign s)) :
    R α (r.exec calls) (r.exec calls') := by
  induction r with
  | done a => exact k.lift (.ok a)
  | fail fault => exact k.lift (.error fault)
  | getState rest ih => exact k.bind k.state fun s => ih s fun s' h => hassign s' (.getState h)
  | setState s rest ih =>
    exact k.bind (hassign s .here) fun _ => ih fun s' h => hassign s' (.setState h)
  | getContext rest ih =>
    exact k.bind k.context fun c => ih c fun s' h => hassign s' (.getContext h)
  | setContext c rest ih =>
    exact k.bind (k.setContext c) fun _ => ih fun s' h => hassign s' (.setContext h)
  | note n rest ih => exact k.bind (k.tell rfl) fun _ => ih fun s' h => hassign s' (.note h)
  | enter target e rest ih =>
    exact k.bind (hcalls.enter target e) fun _ => ih fun s' h => hassign s' (.enter h)
  | step e rest ih => exact k.bind (hcalls.step e) fun d => ih d fun s' h => hassign s' (.step h)

theorem invoke (k : Congruence R) (hcalls : calls.Related R calls') {view : View} {role : Role}
    {handler : Handler σ ρ} {e : EventId}
    (hassign : ∀ s, (handler view e).Assigns s → R Unit (.assign s) (.assign s)) :
    R Unit (.invoke view calls role handler e) (.invoke view calls' role handler e) := by
  refine k.bind k.state fun s => k.bind k.context fun c => k.bind (k.tell rfl) fun _ => ?_
  exact k.bind (k.exec hcalls hassign) fun _ => k.tell rfl

end Exec.Congruence

namespace Table
variable (t : Table (Handler σ ρ) (Logger σ ρ))

/-- A handler that the table runs by itself. -/
inductive Carries : Handler σ ρ → Prop where
  | entry {s handler} (h : t.entryHandler? s = some handler) : Carries handler
  | override {s e i target handler} (hcell : t.cell s e = .ok (some i))
    (h : t.transitionAt i = .ok (target, some handler)) : Carries handler

/-- What is left of a move once the machine is in its new state. -/
def arrive (calls : Calls σ ρ) (target : StateId) (e : EventId) : Exec σ ρ Unit :=
  match t.entryHandler? target with
  | none => return ()
  | some handler => t.invoke calls .entry handler e

/-- A move, and what is done after it. -/
def moveThen (target : StateId) (e : EventId) (rest : Exec σ ρ Unit) : Exec σ ρ Unit := do
  let current ← .state
  .lift (t.checkState current)
  .lift (t.checkState target)
  .lift (t.checkEvent e)
  let eventName ← .lift (t.eventName e)
  let sourceName ← .lift (t.stateName current)
  let targetName ← .lift (t.stateName target)
  t.notify s!"event {eventName} state {sourceName} -> {targetName}"
  .tell (.reported (.entered t.name eventName sourceName targetName))
  .assign target
  rest

variable {t} {target : StateId} {e : EventId}

theorem arrive_none (h : t.entryHandler? target = none) : t.arrive calls target e = return () := by
  rw [arrive, h]

theorem arrive_some {handler : Handler σ ρ} (h : t.entryHandler? target = some handler) :
    t.arrive calls target e = t.invoke calls .entry handler e := by
  rw [arrive, h]

theorem enterWith_eq (target : StateId) (e : EventId) :
    t.enterWith calls target e = t.moveThen target e (t.arrive calls target e) := rfl

/-- A relation between the calls on a table and those on the same table with another logger. Moves,
handlers that set the state and handlers that ask for the logger are what it has to answer for. -/
structure Congruence (R : (α : Type) → Exec σ ρ α → Exec σ ρ α → Prop)
    (t : Table (Handler σ ρ) (Logger σ ρ)) (logger : Option (Logger σ ρ)) : Prop
    extends Exec.Congruence R where
  moveThen (target : StateId) (e : EventId) {x y : Exec σ ρ Unit} (h : R Unit x y) :
    R Unit (t.moveThen target e x) ({ t with logger }.moveThen target e y)
  assign {handler : Handler σ ρ} (h : t.Carries handler) {e : EventId} {s : StateId}
    (hassigns : (handler t.view e).Assigns s) : R Unit (.assign s) (.assign s)
  unasked {handler : Handler σ ρ} (h : t.Carries handler) :
    handler t.view = handler { t with logger }.view

namespace Congruence
variable {logger : Option (Logger σ ρ)}

theorem invoke (k : Congruence R t logger) (hcalls : calls.Related R calls') {role : Role}
    {handler : Handler σ ρ} (hcarries : t.Carries handler) :
    R Unit (t.invoke calls role handler e) ({ t with logger }.invoke calls' role handler e) := by
  rw [Table.invoke, Table.invoke, ← Exec.invoke_congr (k.unasked hcarries)]
  exact k.toCongruence.invoke hcalls fun s h => k.assign hcarries h

theorem enterWith (k : Congruence R t logger) (hcalls : calls.Related R calls')
    (target : StateId) (e : EventId) :
    R Unit (t.enterWith calls target e) ({ t with logger }.enterWith calls' target e) := by
  rw [enterWith_eq, enterWith_eq]
  refine k.moveThen target e ?_
  cases hentry : t.entryHandler? target with
  | none =>
    rw [arrive_none hentry, arrive_none (t := { t with logger }) hentry]
    exact k.lift (.ok ())
  | some handler =>
    rw [arrive_some hentry, arrive_some (t := { t with logger }) hentry]
    exact k.invoke hcalls (.entry hentry)

theorem stepWith (k : Congruence R t logger) (hcalls : calls.Related R calls') (e : EventId) :
    R Outcome (t.stepWith calls e) ({ t with logger }.stepWith calls' e) := by
  refine k.bind k.state fun current => k.lift_bind fun found hcell => ?_
  cases found with
  | none =>
    exact k.bind (k.lift _) fun _ => k.bind (k.lift _) fun _ => k.bind (k.tell rfl) fun _ =>
      k.lift (.ok _)
  | some i =>
    refine k.lift_bind fun ⟨target, override⟩ hat => ?_
    cases override with
    | none => exact k.bind (k.enterWith hcalls target e) fun _ => k.lift (.ok _)
    | some handler => exact k.bind (k.invoke hcalls (.override hcell hat)) fun _ => k.lift (.ok _)

theorem nested (k : Congruence R t logger) (depth : Nat) :
    (t.calls depth).Related R ({ t with logger }.calls depth) := by
  induction depth with
  | zero => exact ⟨fun _ _ => k.lift _, fun _ => k.lift _⟩
  | succ depth ih => exact ⟨k.enterWith ih, k.stepWith ih⟩

end Congruence
end Table
end StateMachine

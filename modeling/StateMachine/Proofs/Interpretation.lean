import StateMachine.Proofs.Handlers
import StateMachine.Proofs.Listing
import StateMachine.Reading

namespace StateMachine

namespace Exec
variable {σ ρ α β : Type}

theorem lift_ok_bind (a : α) (f : α → Exec σ ρ β) : (lift (.ok a) >>= f) = f a := rfl

/-- What follows a check matters only where the check passed. -/
theorem lift_bind_congr {x : Except Fault α} {f g : α → Exec σ ρ β}
    (h : ∀ a, x = .ok a → f a = g a) : (lift x >>= f) = (lift x >>= g) := by
  cases x with
  | ok a => exact h a rfl
  | error fault => rfl

theorem lift_bind {γ : Type} (x : Except Fault α) (g : α → Except Fault β)
    (f : β → Exec σ ρ γ) : (lift (x >>= g) >>= f) = lift x >>= fun a => lift (g a) >>= f := by
  cases x <;> rfl

end Exec

namespace Table
variable {η κ : Type} {t : Table η κ} {ds : Description η} {s : StateId} {e : EventId}

theorem checkState_eq_ok {u : Unit} (h : t.checkState s = .ok u) : s.index < t.stateLimit := by
  by_contra hs
  rw [checkState, if_neg hs] at h
  cases h

theorem checkEvent_eq_ok {u : Unit} (h : t.checkEvent e = .ok u) : e.index < t.eventLimit := by
  by_contra he
  rw [checkEvent, if_neg he] at h
  cases h

theorem Represents.slot_eq (k : t.Represents ds) (hs : s.index < t.stateLimit) :
    t.slot s = .ok ⟨ds.nameOf s, ds.entryHandler? s⟩ := by
  rw [slot, checkState, if_pos hs, element, k.states s hs]
  rfl

theorem Represents.stateName_eq (k : t.Represents ds) (hs : s.index < t.stateLimit) :
    t.stateName s = .ok (ds.nameOf s) := by
  rw [stateName, k.slot_eq hs]
  rfl

theorem Represents.eventName_eq (k : t.Represents ds) (he : e.index < t.eventLimit) :
    t.eventName e = .ok (ds.nameOf e) := by
  rw [eventName, checkEvent, if_pos he, element, k.events e he]
  rfl

theorem Represents.entryHandler?_eq (k : t.Represents ds) (hs : s.index < t.stateLimit) :
    t.entryHandler? s = ds.entryHandler? s := by
  rw [entryHandler?, k.states s hs]
  rfl

theorem Represents.slot_checked (k : t.Represents ds)
    (s : StateId) :
    t.slot s = (do
      t.checkState s
      return ⟨ds.nameOf s, ds.entryHandler? s⟩) := by
  cases hs : t.checkState s with
  | error fault =>
    rw [slot, hs]
    rfl
  | ok u =>
    rw [k.slot_eq (checkState_eq_ok hs)]
    rfl

theorem Represents.eventName_checked (k : t.Represents ds)
    (e : EventId) :
    t.eventName e = (do
      t.checkEvent e
      return ds.nameOf e) := by
  cases he : t.checkEvent e with
  | error fault =>
    rw [eventName, he]
    rfl
  | ok u =>
    rw [k.eventName_eq (checkEvent_eq_ok he)]
    rfl

/-- A look-up makes the two checks and then finds what the description says. -/
theorem Represents.lookup_checked (k : t.Represents ds) (s : StateId) (e : EventId) :
    t.lookup s e = (do
      t.checkState s
      t.checkEvent e
      return ds.transition? (s, e)) := by
  cases hs : t.checkState s with
  | error fault =>
    rw [Table.lookup, cell, hs]
    rfl
  | ok u =>
    cases he : t.checkEvent e with
    | error fault =>
      rw [Table.lookup, cell, hs, he]
      rfl
    | ok u =>
      rw [k.lookup_eq (checkState_eq_ok hs) (checkEvent_eq_ok he)]
      rfl

end Table

/-- A table does the work of a reading of the description that it represents. -/
structure Table.Follows {σ ρ : Type} (t : Table (Handler σ ρ) (Logger σ ρ)) (r : Reading σ ρ) :
    Prop where
  represents : t.Represents r.lines
  name_eq : t.name = r.name
  width_eq : t.width = r.width
  logger_eq : t.logger = r.logger

namespace Table.Follows
variable {σ ρ : Type} {t : Table (Handler σ ρ) (Logger σ ρ)} {r : Reading σ ρ}

theorem checkState_eq (k : t.Follows r) (s : StateId) : t.checkState s = r.checkState s := by
  rw [checkState, Reading.checkState, k.name_eq, k.represents.stateLimit]
  rfl

theorem checkEvent_eq (k : t.Follows r) (e : EventId) : t.checkEvent e = r.checkEvent e := by
  rw [checkEvent, Reading.checkEvent, k.name_eq, k.represents.eventLimit]
  rfl

theorem stateName?_eq (k : t.Follows r) (s : StateId) :
    t.stateName? s = if s.index < r.stateLimit then some (r.lines.nameOf s) else none := by
  have hlimit : t.stateLimit = r.stateLimit := k.represents.stateLimit
  rw [stateName?]
  by_cases hs : s.index < t.stateLimit
  · rw [k.represents.states s hs, if_pos (hlimit ▸ hs)]
    rfl
  · have hout : t.states.size ≤ s.index := by
      rw [k.represents.states_size]
      omega
    rw [Array.getElem?_eq_none hout, if_neg (hlimit ▸ hs)]
    rfl

theorem eventName?_eq (k : t.Follows r) (e : EventId) :
    t.eventName? e = if e.index < r.eventLimit then some (r.lines.nameOf e) else none := by
  have hlimit : t.eventLimit = r.eventLimit := k.represents.eventLimit
  rw [eventName?]
  by_cases he : e.index < t.eventLimit
  · rw [k.represents.events e he, if_pos (hlimit ▸ he)]
  · have hout : t.events.size ≤ e.index := by
      rw [k.represents.events_size]
      omega
    rw [Array.getElem?_eq_none hout, if_neg (hlimit ▸ he)]

theorem hasEntryHandler_eq (k : t.Follows r) (s : StateId) :
    t.hasEntryHandler s = r.view.hasEntryHandler s := by
  simp only [hasEntryHandler, Reading.view, ← k.checkState_eq]
  cases hs : t.checkState s with
  | error fault =>
    rw [slot, hs]
    rfl
  | ok u =>
    rw [k.represents.slot_eq (checkState_eq_ok hs)]
    rfl

theorem lookup_eq (k : t.Follows r) (s : StateId) (e : EventId) :
    t.lookup s e = r.lookup s e := by
  rw [k.represents.lookup_checked, k.checkState_eq, k.checkEvent_eq]
  rfl

/-- A handler cannot tell which of the two called it. -/
theorem view_eq (k : t.Follows r) : t.view = r.view := by
  have hlogger : t.hasLogger = r.logger.isSome := congrArg Option.isSome k.logger_eq
  have hlines : Description.bare t.lines.toList = r.lines.bare := by rw [k.represents.lines]
  rw [view, Reading.view, View.mk.injEq]
  exact ⟨k.name_eq, k.represents.stateLimit, k.represents.eventLimit, k.width_eq, hlogger, hlines,
    funext k.stateName?_eq, funext k.eventName?_eq, funext k.hasEntryHandler_eq,
    funext fun s => funext (k.lookup_eq s)⟩

theorem enterWith_eq (k : t.Follows r) (calls : Calls σ ρ) (target : StateId) (event : EventId) :
    t.enterWith calls target event = r.enterWith calls target event := by
  rw [enterWith, Reading.enterWith]
  apply congrArg (Exec.state >>= ·)
  funext current
  rw [← k.checkState_eq, ← k.checkState_eq, ← k.checkEvent_eq]
  refine Exec.lift_bind_congr fun _ hcurrent => ?_
  refine Exec.lift_bind_congr fun _ htarget => ?_
  refine Exec.lift_bind_congr fun _ hevent => ?_
  rw [k.represents.eventName_eq (checkEvent_eq_ok hevent), Exec.lift_ok_bind,
    k.represents.stateName_eq (checkState_eq_ok hcurrent), Exec.lift_ok_bind,
    k.represents.stateName_eq (checkState_eq_ok htarget), Exec.lift_ok_bind,
    k.represents.entryHandler?_eq (checkState_eq_ok htarget)]
  cases r.lines.entryHandler? target with
  | none => simp only [notify, k.name_eq, k.logger_eq]
  | some handler => simp only [notify, invoke, k.name_eq, k.logger_eq, k.view_eq]

theorem stepWith_eq (k : t.Follows r) (calls : Calls σ ρ) (event : EventId) :
    t.stepWith calls event = r.stepWith calls event := by
  rw [stepWith, Reading.stepWith]
  apply congrArg (Exec.state >>= ·)
  funext current
  rw [← k.checkState_eq, ← k.checkEvent_eq, cell, Exec.lift_bind]
  refine Exec.lift_bind_congr fun _ hcurrent => ?_
  rw [Exec.lift_bind]
  refine Exec.lift_bind_congr fun _ hevent => ?_
  have hs := checkState_eq_ok hcurrent
  have he := checkEvent_eq_ok hevent
  rw [k.represents.cells current event hs he]
  cases hr : r.lines.rule? current event with
  | none =>
    simp only [Option.map_none, Except.mapError, Exec.lift_ok_bind,
      k.represents.stateName_eq hs, k.represents.eventName_eq he, k.name_eq]
  | some rule =>
    have hat := k.represents.transitionAt_eq (Description.declares_of_rule? hr).1
    obtain ⟨position, e, target, handler⟩ := rule
    simp only [Option.map_some, Except.mapError, Exec.lift_ok_bind, hat]
    cases handler with
    | none => simp only [k.enterWith_eq]
    | some handler => simp only [invoke, k.view_eq]

/-- However deep handlers nest, the calls they make come to the same. -/
theorem calls_eq (k : t.Follows r) (depth : Nat) : t.calls depth = r.calls depth := by
  induction depth with
  | zero => rfl
  | succ depth ih =>
    rw [Table.calls, Reading.calls, ih]
    congr 1
    · funext target event
      exact k.enterWith_eq _ target event
    · funext event
      exact k.stepWith_eq _ event

end Table.Follows

namespace Blueprint
variable {η κ σ ρ : Type} {b : Blueprint κ} {ds : Description η} {t : Table η κ}

/-- What a blueprint and a description mean without a build, with any logger. -/
def equip (b : Blueprint κ) (ds : Description η) (f : η → Handler σ ρ)
    (logger : Option (Logger σ ρ)) : Reading σ ρ :=
  ⟨b.name, b.settings.width, ds.map (Line.map f), logger⟩

/-- The same with the logger of the blueprint. -/
def reading (b : Blueprint κ) (ds : Description η) (f : η → Handler σ ρ) (g : κ → Logger σ ρ) :
    Reading σ ρ :=
  b.equip ds f (b.logger.map g)

theorem follows_of_build (h : (b.build ds).1 = .ok t) (f : η → Handler σ ρ)
    (g : κ → Logger σ ρ) : (t.map f g).Follows (b.reading ds f g) := by
  obtain ⟨-, k, hname, hlogger⟩ := represents_of_build h
  exact ⟨k.map f g, hname, (measures_of_build h).2.2, congrArg (Option.map g) hlogger⟩

/-- Dispatch on a table refines the description: no session tells one from the other, whatever its
handlers and its logger do, however deep they nest, and wherever a call fails. -/
theorem transcript_build (h : (b.build ds).1 = .ok t) (f : η → Handler σ ρ)
    (g : κ → Logger σ ρ) (depth : Nat) (holdings : Holdings σ) (turns : List Turn) :
    ((t.map f g).calls depth).transcript holdings turns =
      ((b.reading ds f g).calls depth).transcript holdings turns := by
  rw [(follows_of_build h f g).calls_eq]

/-- The override moves the turnstile itself, by a call back into the table. -/
theorem turnstile_transcript : ∃ t : Table Unit Unit,
    (build ⟨"turnstile", { repeats := .lastWins }, some ()⟩ turnstile).1 = .ok t ∧
      (((t.map (fun _ _ e => .enter ⟨2⟩ e (.done ())) fun _ _ message => ⟨[message], none⟩).calls
        2).transcript ⟨fun _ => ⟨1⟩, fun _ => ()⟩ [⟨0, 0, .step ⟨1⟩⟩, ⟨0, 0, .enter ⟨9⟩ ⟨1⟩⟩]).map
        (fun response => response.holdings.machines 0) = [⟨2⟩, ⟨2⟩] := by
  obtain ⟨t, hbuild, -⟩ := build_ok
    (b := (⟨"turnstile", { repeats := .lastWins }, some ()⟩ : Blueprint Unit)) turnstile_check
  have hbuilt := congrArg Prod.fst hbuild
  refine ⟨t, hbuilt, ?_⟩
  rw [transcript_build hbuilt]
  rfl

end Blueprint
end StateMachine

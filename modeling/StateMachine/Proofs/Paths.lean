import StateMachine.Proofs.Runs

namespace StateMachine
variable {η κ σ ρ α β : Type}

/-- Source and target of a move, by their names. -/
def Notice.move? : Notice → Option (String × String)
  | .entered _ _ source target => some (source, target)
  | _ => none

/-- The moves that a record tells of, in order. -/
def moves (record : List (Occurrence σ ρ)) : List (String × String) :=
  (notices record).filterMap Notice.move?

/-- Every move leaves from where the one before it has led. -/
inductive Path : String → List (String × String) → String → Prop where
  | here (name : String) : Path name [] name
  | move (source : String) {target last : String} {later : List (String × String)}
    (tail : Path target later last) : Path source ((source, target) :: later) last

theorem Path.append {first middle last : String} {earlier later : List (String × String)}
    (h : Path first earlier middle) (h' : Path middle later last) :
    Path first (earlier ++ later) last := by
  induction h with
  | here => exact h'
  | move source _ ih => exact .move source (ih h')

@[simp] theorem moves_append (earlier later : List (Occurrence σ ρ)) :
    moves (earlier ++ later) = moves earlier ++ moves later := by
  simp only [moves, notices_append, List.filterMap_append]

/-- Only a move is told as one. -/
theorem moves_singleton {o : Occurrence σ ρ} (h : o.ofMove = false) : moves [o] = [] := by
  cases o with
  | reported notice =>
    cases notice with
    | entered => cases h
    | _ => rfl
  | _ => rfl

/-- No handler sets the state by itself. That is left to the calls on a table. -/
def Description.Indirect (ds : Description (Handler σ ρ)) (view : View) : Prop :=
  ∀ d ∈ ds.active, ∀ handler, d.handler? = some handler → ∀ e s, ¬ (handler view e).Assigns s

theorem Description.indirect_map {ds : Description η} {f : η → Handler σ ρ} {view : View}
    (h : ∀ x e s, ¬ (f x view e).Assigns s) : Indirect (ds.map (Line.map f)) view := by
  intro d hd handler hhandler e s
  obtain ⟨-, -, x, -, rfl⟩ := exists_of_handler?_map f ds hd hhandler
  exact h x e s

namespace Table
variable {t : Table (Handler σ ρ) (Logger σ ρ)} {ds : Description (Handler σ ρ)}
  {s target : StateId} {e : EventId} {c : σ}

/-- The moves told in a run lead from a state to the one that it leaves behind. -/
structure Travels (t : Table (Handler σ ρ) (Logger σ ρ)) (s : StateId) (a : Account σ ρ α) :
    Prop where
  inRange : a.state.index < t.stateLimit
  path : Path (t.stateText s) (moves a.record) (t.stateText a.state)

theorem Travels.stay (hs : s.index < t.stateLimit) {result : Except Fault α}
    {record : List (Occurrence σ ρ)} (h : moves record = []) :
    t.Travels s ⟨result, s, c, record⟩ := by
  refine ⟨hs, ?_⟩
  rw [h]
  exact .here _

theorem Travels.andThen {a : Account σ ρ α} {f : α → StateId → σ → Account σ ρ β}
    (h : t.Travels s a) (hf : ∀ v c, t.Travels a.state (f v a.state c)) :
    t.Travels s (a.andThen f) := by
  obtain ⟨_ | v, s', c, record⟩ := a
  · exact ⟨h.inRange, h.path⟩
  · obtain ⟨hrange, hpath⟩ := hf v c
    refine ⟨hrange, ?_⟩
    simp only [Account.andThen_ok, Account.after, moves_append]
    exact h.path.append hpath

/-- A call that takes every machine in range along the moves that it tells. -/
def Guides (t : Table (Handler σ ρ) (Logger σ ρ)) (x : Exec σ ρ α) : Prop :=
  ∀ s c, s.index < t.stateLimit → t.Travels s (x s c).account

theorem moves_told : moves (t.told s target e c) = [] := by
  unfold told
  cases t.logger with
  | none => rfl
  | some logger =>
    change (notices (((logger c _).notes).map .noted)).filterMap Notice.move? = []
    rw [notices_noted]
    rfl

theorem moves_moved : moves (t.moved s target e c) = [(t.stateText s, t.stateText target)] := by
  rw [moved, moves_append, moves_told]
  rfl

theorem stateName?_equip {t : Table η κ} {f : η → Handler σ ρ} {logger : Option (Logger σ ρ)}
    (s : StateId) : (t.equip f logger).stateName? s = t.stateName? s := by
  simp [equip, map, stateName?, Function.comp_def]

theorem Represents.stateName?_eq (k : t.Represents ds) (hs : s.index < t.stateLimit) :
    t.stateName? s = some (t.stateText s) := by
  rw [stateText, stateName?, k.states s hs]
  rfl

/-- A move that fails changes nothing and is not told, and one that does not fail is both. -/
theorem Represents.moveThen_guides (k : t.Represents ds) {rest : Exec σ ρ Unit}
    (h : t.Guides rest) : t.Guides (t.moveThen target e rest) := by
  intro s c hs
  cases hhead : (t.breaches s (.enter target e)).head? with
  | some fault =>
    rw [moveThen_breach hhead]
    exact .stay hs rfl
  | none =>
    have hclear := List.head?_eq_none_iff.mp hhead
    obtain ⟨-, htarget, -⟩ := breaches_enter_eq_nil.mp hclear
    rw [k.moveThen_clear hclear]
    cases t.logFailure? s target e c with
    | some message => exact .stay hs moves_told
    | none =>
      obtain ⟨hrange, hpath⟩ := h target c htarget
      refine ⟨hrange, ?_⟩
      simp only [Account.after, moves_append, moves_moved]
      exact .move _ hpath

/-- Handlers that a table runs stand in the lines it represents. -/
theorem Represents.line_of_carries (k : t.Represents ds) {handler : Handler σ ρ}
    (h : t.Carries handler) : ∃ d ∈ ds.active, d.handler? = some handler := by
  cases h with
  | @entry s _ h =>
    by_cases hs : s.index < t.stateLimit
    · rw [k.entryHandler?_eq hs] at h
      exact ⟨_, Description.onEntry_of_entryHandler? h, rfl⟩
    · rw [← k.states_size] at hs
      rw [entryHandler?, Array.getElem?_eq_none (Nat.le_of_not_lt hs)] at h
      cases h
  | @override s e i target _ hcell h =>
    cases hhead : (t.breaches s (.step e)).head? with
    | some fault =>
      rw [cell_breach hhead] at hcell
      cases hcell
    | none =>
      rcases k.cell_cases (List.head?_eq_none_iff.mp hhead) with hnone | ⟨r, hr, hfound, hat⟩
      · rw [hnone] at hcell
        cases hcell
      · obtain rfl : r.position = i := Option.some.inj (Except.ok.inj (hfound.symm.trans hcell))
        have hpair := Except.ok.inj (hat.symm.trans h)
        have hline := Description.mem_rules_iff.mp (Description.declares_of_rule? hr).1
        exact ⟨_, List.mem_of_getElem? hline, congrArg Prod.snd hpair⟩

/-- Without handlers that set the state by themselves, all that a table does follows its moves. -/
theorem Represents.guides_congruence (k : t.Represents ds) (hindirect : ds.Indirect t.view) :
    t.Congruence (fun _ x _ => t.Guides x) t.logger where
  bind h hf s c hs := by
    rw [Exec.account_bind]
    have hfirst := h s c hs
    exact hfirst.andThen fun v c' => hf v _ c' hfirst.inRange
  lift r s c hs := by
    rw [Exec.account_lift]
    exact .stay hs rfl
  state s c hs := .stay hs rfl
  context s c hs := .stay hs rfl
  setContext c' s c hs := .stay hs rfl
  tell h s c hs := by
    rw [Exec.account_tell]
    exact .stay hs (moves_singleton h)
  moveThen target e x y h := k.moveThen_guides h
  assign hcarries e s hassigns := by
    obtain ⟨d, hd, hhandler⟩ := k.line_of_carries hcarries
    exact absurd hassigns (hindirect d hd _ hhandler e s)
  unasked _ := rfl

end Table

section Sessions
variable {t : Table (Handler σ ρ) (Logger σ ρ)} {calls : Calls σ ρ} {holdings : Holdings σ}

/-- What a session leaves of the machines and their contexts. -/
def Holdings.finally (holdings : Holdings σ) (responses : List (Response σ ρ)) : Holdings σ :=
  (responses.map (·.holdings)).getLastD holdings

theorem Calls.Related.respond_travels
    (h : calls.Related (fun _ x _ => t.Guides x) calls) {turn : Turn}
    (hs : (holdings.machines turn.machine).index < t.stateLimit) :
    let response := calls.respond holdings turn
    (response.holdings.machines turn.machine).index < t.stateLimit ∧
      Path (t.stateText (holdings.machines turn.machine)) (moves response.record)
        (t.stateText (response.holdings.machines turn.machine)) := by
  obtain ⟨machine, context, request⟩ := turn
  cases request with
  | step e =>
    obtain ⟨hrange, hpath⟩ := h.step e _ (holdings.contexts context) hs
    simpa [Calls.respond, Holdings.drive, Holdings.put] using ⟨hrange, hpath⟩
  | enter target e =>
    obtain ⟨hrange, hpath⟩ := h.enter target e _ (holdings.contexts context) hs
    simpa [Calls.respond, Holdings.drive, Holdings.put] using ⟨hrange, hpath⟩

/-- Turn by turn the paths of the answers join. -/
theorem Calls.Related.transcript_travels
    (h : calls.Related (fun _ x _ => t.Guides x) calls) {machine : Nat}
    (hs : (holdings.machines machine).index < t.stateLimit) {turns : List Turn}
    (hturns : ∀ turn ∈ turns, turn.machine = machine) :
    let responses := calls.transcript holdings turns
    ((holdings.finally responses).machines machine).index < t.stateLimit ∧
      Path (t.stateText (holdings.machines machine)) (responses.flatMap fun r => moves r.record)
        (t.stateText ((holdings.finally responses).machines machine)) := by
  induction turns generalizing holdings with
  | nil => exact ⟨hs, .here _⟩
  | cons turn rest ih =>
    obtain ⟨rfl, hrest⟩ := List.forall_mem_cons.mp hturns
    obtain ⟨hrange, hpath⟩ := h.respond_travels hs
    obtain ⟨hlast, hlater⟩ := ih hrange hrest
    simp only [Calls.transcript, List.flatMap_cons, Holdings.finally, List.map_cons,
      List.getLastD_cons]
    exact ⟨hlast, hpath.append hlater⟩

end Sessions

namespace Blueprint
variable {b : Blueprint κ} {ds : Description η} {t : Table η κ}

/-- The moves of a machine form one connected path from the state in which it was found to the state
in which it is left, if handlers move it only by calls on the table. It makes no difference how often
a call fails, or where: the session goes on, or it may be over. -/
theorem moves_connected (h : (b.build ds).1 = .ok t) (f : η → Handler σ ρ)
    (logger : Option (Logger σ ρ))
    (hindirect : Description.Indirect (ds.map (Line.map f)) (t.equip f logger).view)
    (depth : Nat) (holdings : Holdings σ) (machine : Nat)
    (hstart : (holdings.machines machine).index < t.stateLimit)
    (turns : List Turn) (hturns : ∀ turn ∈ turns, turn.machine = machine) :
    let responses := ((t.equip f logger).calls depth).transcript holdings turns
    ∃ first last, t.stateName? (holdings.machines machine) = some first ∧
      t.stateName? ((holdings.finally responses).machines machine) = some last ∧
      Path first (responses.flatMap fun response => moves response.record) last := by
  have k := (ready_of_build h f logger).toRepresents
  have hnested := (k.guides_congruence hindirect).nested depth
  obtain ⟨hlast, hpath⟩ := hnested.transcript_travels hstart hturns
  refine ⟨_, _, ?_, ?_, hpath⟩
  · rw [← k.stateName?_eq hstart, Table.stateName?_equip]
  · rw [← k.stateName?_eq hlast, Table.stateName?_equip]

/-- A jump is a call. -/
theorem not_assigns_jumpTo {view : View} {target s : StateId} {e : EventId} :
    ¬ (Table.jumpTo target view e : Routine σ ρ Unit).Assigns s := by
  intro h
  cases h with
  | enter h => cases h

theorem equip_none (h : t.logger = none) (f : η → Handler σ ρ) (g : κ → Logger σ ρ) :
    t.equip f none = t.map f g := by
  rw [Table.equip, Table.map, Table.map, h]
  rfl

/-- The override moves the turnstile by a call, and the session goes on after a state out of range. -/
theorem turnstile_moves : ∃ t : Table Unit Unit,
    (build ⟨"turnstile", { repeats := .lastWins }, none⟩ turnstile).1 = .ok t ∧
      let responses := ((t.equip (fun _ => Table.jumpTo ⟨2⟩)
        (none : Option (Logger Unit Unit))).calls 2).transcript ⟨fun _ => ⟨1⟩, fun _ => ()⟩
          [⟨0, 0, .step ⟨1⟩⟩, ⟨0, 0, .enter ⟨9⟩ ⟨1⟩⟩, ⟨0, 0, .step ⟨2⟩⟩]
      (responses.flatMap fun response => moves response.record) =
          [("locked", "open"), ("open", "locked")] ∧
        ∃ last, Path "locked" (responses.flatMap fun response => moves response.record) last := by
  obtain ⟨t, hbuilt, k, -, hlogger⟩ := turnstile_built (none : Option Unit)
  have hstart : Number.index (⟨1⟩ : StateId) < t.stateLimit := by
    rw [k.stateLimit]
    decide
  let jump : Unit → Handler Unit Unit := fun _ => Table.jumpTo ⟨2⟩
  have hindirect :
      Description.Indirect (turnstile.map (Line.map jump)) (t.equip jump none).view :=
    Description.indirect_map fun _ _ _ => not_assigns_jumpTo
  obtain ⟨first, last, hfirst, -, hpath⟩ := moves_connected hbuilt jump none hindirect 2
    ⟨fun _ => ⟨1⟩, fun _ => ()⟩ 0 hstart
    [⟨0, 0, .step ⟨1⟩⟩, ⟨0, 0, .enter ⟨9⟩ ⟨1⟩⟩, ⟨0, 0, .step ⟨2⟩⟩] (by simp)
  obtain rfl : first = "locked" := by
    rw [Table.stateName?, k.states ⟨1⟩ hstart] at hfirst
    exact (Option.some.inj hfirst).symm
  refine ⟨t, hbuilt, ?_, last, hpath⟩
  rw [equip_none hlogger _ (fun _ _ _ => {}), (follows_of_build hbuilt _ _).calls_eq]
  rfl

end Blueprint
end StateMachine

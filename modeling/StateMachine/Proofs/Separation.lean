import Mathlib.Logic.Function.Basic
import StateMachine.Proofs.Logs
import StateMachine.Proofs.Plain
import StateMachine.Proofs.Sessions

namespace StateMachine
variable {η κ σ ρ α β : Type}

/-- A list made up of others: its next element is always the first one that is left in one of them. -/
inductive Merge : (Nat → List α) → List α → Prop where
  | nil : Merge (fun _ => []) []
  | next {lists merged} (i : Nat) (a : α) (rest : Merge lists merged) :
    Merge (Function.update lists i (a :: lists i)) (a :: merged)

theorem Merge.prepend {lists : Nat → List α} {merged : List α} (h : Merge lists merged) (i : Nat)
    (xs : List α) : Merge (Function.update lists i (xs ++ lists i)) (xs ++ merged) := by
  induction xs with
  | nil => simpa using h
  | cons a xs ih =>
    have hnext := Merge.next i a ih
    rwa [Function.update_self, Function.update_idem] at hnext

/-- What belongs to one machine. -/
def ownedBy (i : Nat) (xs : List (Nat × α)) : List α :=
  xs.filterMap fun (j, a) => if j = i then some a else none

@[simp] theorem ownedBy_cons_self (i : Nat) (a : α) (xs : List (Nat × α)) :
    ownedBy i ((i, a) :: xs) = a :: ownedBy i xs := by
  simp [ownedBy]

theorem ownedBy_cons_ne {i j : Nat} (h : j ≠ i) (a : α) (xs : List (Nat × α)) :
    ownedBy i ((j, a) :: xs) = ownedBy i xs := by
  simp [ownedBy, h]

theorem ownedBy_map (i : Nat) (g : α → β) (xs : List (Nat × α)) :
    ownedBy i (xs.map fun (j, a) => (j, g a)) = (ownedBy i xs).map g := by
  rw [ownedBy, ownedBy, List.filterMap_map, List.map_filterMap]
  refine List.filterMap_congr fun x _ => ?_
  by_cases hi : x.1 = i <;> simp [hi]

theorem map_snd_ownedBy {i : Nat} {xs : List (Nat × α)} (h : ∀ x ∈ xs, x.1 = i) :
    ownedBy i xs = xs.map (·.2) := by
  rw [ownedBy, ← List.filterMap_eq_map]
  exact List.filterMap_congr fun x hx => if_pos (h x hx)

namespace Turn

/-- The turns of one machine. -/
def own (i : Nat) (turns : List Turn) : List Turn := turns.filter (·.machine = i)

def order (slot depth : Nat) (turn : Turn) : Order η κ σ ρ :=
  .perform slot turn.machine turn.context depth (.call turn.request)

theorem machine_of_mem_own {i : Nat} {turns : List Turn} {turn : Turn} (h : turn ∈ own i turns) :
    turn.machine = i :=
  of_decide_eq_true (List.mem_filter.mp h).2

theorem own_cons_self (turn : Turn) (rest : List Turn) :
    own turn.machine (turn :: rest) = turn :: own turn.machine rest := by
  simp [own]

theorem own_cons_ne {i : Nat} {turn : Turn} (h : turn.machine ≠ i) (rest : List Turn) :
    own i (turn :: rest) = own i rest := by
  simp [own, h]

@[simp] theorem own_own (i : Nat) (turns : List Turn) : own i (own i turns) = own i turns := by
  simp [own]

end Turn

/-- What a call comes to, for its machine and for the log of the table. -/
structure Effect where
  answer : Except Fault (Option Outcome)
  state : StateId
  messages : List String

namespace Table

/-- A call on a table without handlers. -/
def effect (t : Table η κ) (ds : Description η) (s : StateId) (request : Request) : Effect :=
  match (t.breaches s request).head? with
  | some fault => ⟨.error fault, s, []⟩
  | none =>
    match request with
    | .enter target e => ⟨.ok none, target, [t.announcement s target e]⟩
    | .step e =>
      match ds.rule? s e with
      | none => ⟨.ok (some .ignored), s, []⟩
      | some r => ⟨.ok (some (.entered r.target)), r.target, [t.announcement s r.target e]⟩

/-- The way of one machine. -/
def course (t : Table η κ) (ds : Description η) : StateId → List Request → List Effect
  | _, [] => []
  | s, request :: rest =>
    let effect := t.effect ds s request
    effect :: t.course ds effect.state rest

/-- The ways of all machines, as they are mixed. -/
def effects (t : Table η κ) (ds : Description η) :
    (Nat → StateId) → List Turn → List (Nat × Effect)
  | _, [] => []
  | machines, turn :: rest =>
    let effect := t.effect ds (machines turn.machine) turn.request
    (turn.machine, effect) ::
      t.effects ds (Function.update machines turn.machine effect.state) rest

/-- Whatever is done with other machines, one of them goes its own way. -/
theorem ownedBy_effects (t : Table η κ) (ds : Description η) (machines : Nat → StateId)
    (turns : List Turn) (i : Nat) :
    ownedBy i (t.effects ds machines turns) =
      t.course ds (machines i) ((Turn.own i turns).map (·.request)) := by
  induction turns generalizing machines with
  | nil => rfl
  | cons turn rest ih =>
    rw [effects]
    by_cases hi : turn.machine = i
    · subst hi
      rw [ownedBy_cons_self, ih, Function.update_self, Turn.own_cons_self]
      rfl
    · rw [ownedBy_cons_ne hi, ih, Function.update_of_ne (Ne.symm hi), Turn.own_cons_ne hi]

theorem machine_of_mem_effects {t : Table η κ} {ds : Description η} {machines : Nat → StateId}
    {turns : List Turn} {i : Nat} (h : ∀ turn ∈ turns, turn.machine = i) :
    ∀ x ∈ t.effects ds machines turns, x.1 = i := by
  induction turns generalizing machines with
  | nil => exact List.forall_mem_nil _
  | cons turn rest ih =>
    obtain ⟨hturn, hrest⟩ := List.forall_mem_cons.mp h
    exact List.forall_mem_cons.mpr ⟨hturn, ih hrest⟩

/-- The messages of all machines are those of each, mixed. -/
theorem merge_effects (effects : List (Nat × Effect)) :
    Merge (fun i => (ownedBy i effects).flatMap (·.messages))
      (effects.flatMap (·.2.messages)) := by
  induction effects with
  | nil => exact .nil
  | cons x rest ih =>
    obtain ⟨i, effect⟩ := x
    have hmerge := ih.prepend i effect.messages
    have hlists : Function.update (fun j => (ownedBy j rest).flatMap (·.messages)) i
        (effect.messages ++ (ownedBy i rest).flatMap (·.messages)) =
        fun j => (ownedBy j ((i, effect) :: rest)).flatMap (·.messages) := by
      funext j
      by_cases hj : i = j
      · subst hj
        rw [Function.update_self, ownedBy_cons_self, List.flatMap_cons]
      · rw [Function.update_of_ne (Ne.symm hj), ownedBy_cons_ne hj]
    exact hlists ▸ hmerge

end Table

namespace Blueprint
variable {b : Blueprint κ} {ds : Description η} {t : Table η κ} {p : Practice η κ σ ρ} {k : κ}
  {handle : Nat} {s target : StateId} {e : EventId}

/-- A logger that belongs to a log records each move there. -/
theorem notes_moved_log (t : Table η κ) (hk : p.handle? k = some handle) (s target : StateId)
    (e : EventId) (c : σ) :
    (notes ((t.equip p.handler (some (p.logger k))).moved s target e c)).filterMap p.change? =
      [.record handle (t.announcement s target e)] := by
  rw [Table.notes_moved]
  refine (p.filterMap_noted (t.setLogger k) (.passed s target e c)).trans ?_
  rw [Practice.hears, Table.setLogger]
  simp only [hk]
  rfl

theorem enterWith_logged (h : (b.build ds).1 = .ok t) (hplain : ∀ d ∈ ds.active, d.handler? = none)
    (hk : p.handle? k = some handle) (calls : Calls σ ρ) (c : σ)
    (hclear : t.breaches s (.enter target e) = []) :
    let t' := t.equip p.handler (some (p.logger k))
    (t'.enterWith calls target e s c).account = ⟨.ok (), target, c, t'.moved s target e c⟩ := by
  intro t'
  have k' := (ready_of_build h p.handler (some (p.logger k))).toRepresents
  rw [k'.enterWith_plain (Description.plain_map p.handler hplain) hclear]
  obtain ⟨note, hnote, -⟩ := p.records k handle hk c (t'.announcement s target e)
  have hfail : t'.logFailure? s target e c = none := congrArg LogEntry.failure hnote
  rw [hfail]

theorem stepWith_logged (h : (b.build ds).1 = .ok t) (hplain : ∀ d ∈ ds.active, d.handler? = none)
    (hk : p.handle? k = some handle) (calls : Calls σ ρ) (c : σ)
    (hclear : t.breaches s (.step e) = []) :
    let t' := t.equip p.handler (some (p.logger k))
    (t'.stepWith calls e s c).account =
      match ds.rule? s e with
      | none =>
        ⟨.ok .ignored, s, c, [.reported (.ignored t'.name (t'.stateText s) (t'.eventText e))]⟩
      | some r => ⟨.ok (.entered r.target), r.target, c, t'.moved s r.target e c⟩ := by
  intro t'
  have k' := ready_of_build h p.handler (some (p.logger k))
  rw [k'.stepWith_plain (Description.plain_map p.handler hplain) hclear]
  have hrule := ds.rule?_map p.handler s e
  cases hr : ds.rule? s e with
  | none =>
    rw [hr] at hrule
    rw [hrule]
    rfl
  | some r =>
    rw [hr] at hrule
    rw [hrule]
    have htarget := (k'.target _ (Description.declares_of_rule? hrule).1).2
    obtain ⟨hs, he⟩ := Table.breaches_step_eq_nil (t := t').mp hclear
    have henter : t.breaches s (.enter r.target e) = [] :=
      Table.breaches_enter_eq_nil (t := t').mpr ⟨hs, htarget, he⟩
    have haccount := enterWith_logged h hplain hk calls c henter
    simp only [Option.map_some, Rule.map]
    rw [haccount, Account.andThen_ok, Account.after_mk, List.append_nil]

/-- What a call on a machine comes to. Neither its context nor its depth has a part in it. -/
theorem perform_effect (h : (b.build ds).1 = .ok t) (hplain : ∀ d ∈ ds.active, d.handler? = none)
    (hk : p.handle? k = some handle) (depth : Nat) (s : StateId) (c : σ) (request : Request) :
    let a := ((t.equip p.handler (some (p.logger k))).perform depth (.call request) s c).account
    a.result = (t.effect ds s request).answer ∧ a.state = (t.effect ds s request).state ∧
      (notes a.record).filterMap p.change? =
        (t.effect ds s request).messages.map (.record handle) := by
  let t' := t.equip p.handler (some (p.logger k))
  have hbreaches : t'.breaches s request = t.breaches s request := rfl
  unfold Table.effect Table.perform
  cases hbreach : (t.breaches s request).head? with
  | some fault =>
    rw [← hbreaches] at hbreach
    cases request with
    | enter target e =>
      have hcall : ((t'.calls (depth + 1)).enter target e s c).account = ⟨.error fault, s, c, []⟩ :=
        Table.enterWith_breach hbreach
      rw [Calls.account_enter, hcall]
      exact ⟨rfl, rfl, rfl⟩
    | step e =>
      have hcall : ((t'.calls (depth + 1)).step e s c).account = ⟨.error fault, s, c, []⟩ :=
        Table.stepWith_breach hbreach
      rw [Calls.account_step, hcall]
      exact ⟨rfl, rfl, rfl⟩
  | none =>
    have hclear := List.head?_eq_none_iff.mp hbreach
    cases request with
    | enter target e =>
      have hcall := enterWith_logged h hplain hk (t'.calls depth) c hclear
      rw [Calls.account_enter, Table.calls, hcall]
      exact ⟨rfl, rfl, notes_moved_log t hk s target e c⟩
    | step e =>
      have hcall := stepWith_logged h hplain hk (t'.calls depth) c hclear
      rw [Calls.account_step, Table.calls, hcall]
      dsimp only
      cases ds.rule? s e with
      | none => exact ⟨rfl, rfl, rfl⟩
      | some r => exact ⟨rfl, rfl, notes_moved_log t hk s r.target e c⟩

end Blueprint

theorem Shelf.Sound.messages_record {shelf : Shelf} (h : shelf.Sound) {handle log : Nat}
    (hopen : shelf.handles[handle]? = some log) (messages : List String) :
    ((messages.map (LogChange.record handle)).foldl Shelf.apply shelf).messages handle =
      shelf.messages handle ++ messages := by
  induction messages generalizing shelf with
  | nil => exact (List.append_nil _).symm
  | cons message rest ih =>
    have hrecord : (shelf.apply (.record handle message)).messages handle =
        shelf.messages handle ++ [message] := by
      have hcontent := h.content_change handle (·.push message) log
      rw [if_pos hopen, Array.toList_push] at hcontent
      rw [Shelf.messages_eq, Shelf.messages_eq, Shelf.handles_apply, hopen]
      exact hcontent
    have hopen' : (shelf.apply (.record handle message)).handles[handle]? = some log := by
      rw [Shelf.handles_apply]
      exact hopen
    rw [List.map_cons, List.foldl_cons, ih (h.apply _) hopen', hrecord, List.append_assoc]
    rfl

namespace Estate
variable {b : Blueprint κ} {ds : Description η} {t : Table η κ} {p : Practice η κ σ ρ} {k : κ}
  {estate : Estate η κ σ} {slot handle : Nat}

/-- The table in the slot has a logger, and the handle to its log leads somewhere. -/
structure Shares (estate : Estate η κ σ) (slot : Nat) (t : Table η κ) (k : κ) (handle : Nat) :
    Prop where
  table : estate.table? slot = some (t.setLogger k)
  sound : estate.shelf.Sound
  opened : ∃ log, estate.shelf.handles[handle]? = some log

/-- Takes turns with the machines on the table in the slot. -/
def play (p : Practice η κ σ ρ) (slot depth : Nat) (estate : Estate η κ σ) (turns : List Turn) :
    Estate η κ σ :=
  estate.after p (turns.map (Turn.order slot depth))

/-- What the turns are answered, each with its machine. -/
def answers (p : Practice η κ σ ρ) (slot depth : Nat) (estate : Estate η κ σ) :
    List Turn → List (Nat × Except Fault (Option Outcome))
  | [] => []
  | turn :: rest =>
    (estate.table? slot).toList.map (fun t => (turn.machine,
      (estate.run p t turn.machine turn.context depth (.call turn.request)).result)) ++
    (estate.perform p (turn.order slot depth)).answers p slot depth rest

theorem Shares.perform (hshares : estate.Shares slot t k handle) (h : (b.build ds).1 = .ok t)
    (hplain : ∀ d ∈ ds.active, d.handler? = none) (hk : p.handle? k = some handle) (depth : Nat)
    (turn : Turn) :
    let effect := t.effect ds (estate.holdings.machines turn.machine) turn.request
    let estate' := estate.perform p (turn.order slot depth)
    estate'.Shares slot t k handle ∧
      estate'.holdings.machines =
        Function.update estate.holdings.machines turn.machine effect.state ∧
      estate'.shelf.messages handle = estate.shelf.messages handle ++ effect.messages ∧
      (estate.run p (t.setLogger k) turn.machine turn.context depth (.call turn.request)).result =
        effect.answer := by
  intro effect estate'
  obtain ⟨htable, hsound, log, hopen⟩ := hshares
  obtain ⟨hanswer, hstate, hnotes⟩ := Blueprint.perform_effect (p := p) h hplain hk depth
    (estate.holdings.machines turn.machine) (estate.holdings.contexts turn.context) turn.request
  have hchanges : estate.changes p (turn.order slot depth) =
      effect.messages.map (LogChange.record handle) := by
    simp only [Turn.order, changes, htable]
    exact hnotes
  have hafter : estate' = { estate with
      holdings := estate.holdings.put turn.machine turn.context effect.state
        (estate.run p (t.setLogger k) turn.machine turn.context depth (.call turn.request)).context
      shelf := (effect.messages.map (LogChange.record handle)).foldl Shelf.apply estate.shelf } := by
    rw [← hchanges, ← hstate]
    simp only [estate', Turn.order, Estate.perform, onTable, htable]
    rfl
  rw [hafter]
  refine ⟨⟨htable, hsound.foldl _, log, ?_⟩, ?_, hsound.messages_record hopen _, hanswer⟩
  · rw [Shelf.handles_foldl]
    exact hopen
  · funext i
    rw [Function.update_apply]
    rfl

/-- Turns on a table without handlers come to the effects of their calls, one after the other. -/
theorem Shares.play (hshares : estate.Shares slot t k handle) (h : (b.build ds).1 = .ok t)
    (hplain : ∀ d ∈ ds.active, d.handler? = none) (hk : p.handle? k = some handle) (depth : Nat)
    (turns : List Turn) :
    let effects := t.effects ds estate.holdings.machines turns
    let estate' := estate.play p slot depth turns
    estate.answers p slot depth turns = effects.map (fun (i, effect) => (i, effect.answer)) ∧
      (∀ i, estate'.holdings.machines i =
        ((ownedBy i effects).map (·.state)).getLastD (estate.holdings.machines i)) ∧
      estate'.shelf.messages handle =
        estate.shelf.messages handle ++ effects.flatMap (·.2.messages) := by
  induction turns generalizing estate with
  | nil => exact ⟨rfl, fun _ => rfl, (List.append_nil _).symm⟩
  | cons turn rest ih =>
    obtain ⟨hshares', hmachines, hmessages, hanswer⟩ := hshares.perform h hplain hk depth turn
    obtain ⟨hanswers, hstates, hrest⟩ := ih hshares'
    rw [hmachines] at hanswers hstates hrest
    refine ⟨?_, ?_, ?_⟩
    · rw [answers, hshares.table, hanswers]
      exact congrArg (fun answer => (turn.machine, answer) :: _) hanswer
    · intro i
      refine (hstates i).trans ?_
      rw [Table.effects]
      by_cases hi : turn.machine = i
      · subst hi
        rw [ownedBy_cons_self, List.map_cons, List.getLastD_cons, Function.update_self]
      · rw [ownedBy_cons_ne hi, Function.update_of_ne (Ne.symm hi)]
    · refine hrest.trans ?_
      rw [hmessages, List.append_assoc]
      rfl

/-- Every machine gets the same answers and goes to the same state as if it were alone, and the log gets
the messages of all, mixed. -/
structure Separates (p : Practice η κ σ ρ) (slot depth handle : Nat) (estate : Estate η κ σ)
    (turns : List Turn) : Prop where
  answers : ∀ i, ownedBy i (estate.answers p slot depth turns) =
    ownedBy i (estate.answers p slot depth (Turn.own i turns))
  states : ∀ i, (estate.play p slot depth turns).holdings.machines i =
    (estate.play p slot depth (Turn.own i turns)).holdings.machines i
  messages : ∃ alone merged, Merge alone merged ∧
    (estate.play p slot depth turns).shelf.messages handle =
      estate.shelf.messages handle ++ merged ∧
    ∀ i, (estate.play p slot depth (Turn.own i turns)).shelf.messages handle =
      estate.shelf.messages handle ++ alone i

section
variable (hshares : estate.Shares slot t k handle) (h : (b.build ds).1 = .ok t)
  (hplain : ∀ d ∈ ds.active, d.handler? = none) (hk : p.handle? k = some handle)
include hshares h hplain hk

/-- What becomes of a machine depends on its own requests only. -/
theorem Shares.own_course (depth : Nat) (turns : List Turn) (i : Nat) :
    let course := t.course ds (estate.holdings.machines i) ((Turn.own i turns).map (·.request))
    ownedBy i (estate.answers p slot depth turns) = course.map (·.answer) ∧
      (estate.play p slot depth turns).holdings.machines i =
        (course.map (·.state)).getLastD (estate.holdings.machines i) := by
  obtain ⟨hanswers, hstates, -⟩ := hshares.play h hplain hk depth turns
  rw [hanswers, hstates, ownedBy_map i Effect.answer, Table.ownedBy_effects]
  exact ⟨rfl, rfl⟩

theorem Shares.own_messages (depth : Nat) (turns : List Turn) (i : Nat) :
    (estate.play p slot depth (Turn.own i turns)).shelf.messages handle =
      estate.shelf.messages handle ++ (t.course ds (estate.holdings.machines i)
        ((Turn.own i turns).map (·.request))).flatMap (·.messages) := by
  obtain ⟨-, -, hmessages⟩ := hshares.play h hplain hk depth (Turn.own i turns)
  rw [hmessages, ← List.flatMap_map, ← map_snd_ownedBy, Table.ownedBy_effects, Turn.own_own]
  exact Table.machine_of_mem_effects fun turn hturn => Turn.machine_of_mem_own hturn

theorem Shares.separates (depth : Nat) (turns : List Turn) :
    estate.Separates p slot depth handle turns where
  answers i := by
    rw [(hshares.own_course h hplain hk depth turns i).1,
      (hshares.own_course h hplain hk depth (Turn.own i turns) i).1, Turn.own_own]
  states i := by
    rw [(hshares.own_course h hplain hk depth turns i).2,
      (hshares.own_course h hplain hk depth (Turn.own i turns) i).2, Turn.own_own]
  messages := by
    obtain ⟨-, -, hmessages⟩ := hshares.play h hplain hk depth turns
    refine ⟨_, _, Table.merge_effects _, hmessages, fun i => ?_⟩
    rw [hshares.own_messages h hplain hk, Table.ownedBy_effects]

end

end Estate

/-- A request that a table finds in range, if the machine is. -/
def Request.InRange (t : Table η κ) : Request → Prop
  | .step e => e.index < t.eventLimit
  | .enter target e => target.index < t.stateLimit ∧ e.index < t.eventLimit

/-- A door without handlers. -/
def door : Description (List Action) :=
  [.event ⟨1⟩ "push", .event ⟨2⟩ "pull", .state ⟨1⟩ "shut", .next ⟨1⟩ ⟨2⟩ none, .state ⟨2⟩ "open",
    .next ⟨2⟩ ⟨1⟩ none]

namespace Blueprint
variable {b : Blueprint κ} {ds : Description η} {t : Table η κ}

/-- A call in range is answered, and leaves its machine in range. -/
theorem effect_ok (h : (b.build ds).1 = .ok t) {s : StateId} {request : Request}
    (hs : s.index < t.stateLimit) (hrequest : request.InRange t) :
    (∃ outcome, (t.effect ds s request).answer = .ok outcome) ∧
      (t.effect ds s request).state.index < t.stateLimit := by
  obtain ⟨hlawful, k, -, -⟩ := represents_of_build h
  cases request with
  | enter target e =>
    obtain ⟨htarget, he⟩ := hrequest
    simp [Table.effect, Table.breaches, Table.stateBreach, Table.eventBreach, hs, htarget, he]
  | step e =>
    have he : e.index < t.eventLimit := hrequest
    simp only [Table.effect, Table.breaches, Table.stateBreach, Table.eventBreach, hs, he, if_true,
      List.append_nil, List.head?_nil]
    cases hr : ds.rule? s e with
    | none => exact ⟨⟨_, rfl⟩, hs⟩
    | some r =>
      have hle := (hlawful.target r (Description.declares_of_rule? hr).1).2
      have hlimit := k.stateLimit
      exact ⟨⟨_, rfl⟩, by dsimp only; omega⟩

theorem course_ok (h : (b.build ds).1 = .ok t) {s : StateId} {requests : List Request}
    (hs : s.index < t.stateLimit) (hrequests : ∀ request ∈ requests, request.InRange t) :
    ∀ effect ∈ t.course ds s requests, ∃ outcome, effect.answer = .ok outcome := by
  induction requests generalizing s with
  | nil => exact List.forall_mem_nil _
  | cons request rest ih =>
    obtain ⟨hrequest, hrest⟩ := List.forall_mem_cons.mp hrequests
    obtain ⟨hanswer, hstate⟩ := effect_ok h hs hrequest
    exact List.forall_mem_cons.mpr ⟨hanswer, ih hstate hrest⟩

/-- Machines on one table do not interfere. If the table has no handlers, and its logger belongs to a log,
then in any turns with any number of machines each of them gets the answers and the final state that
it gets alone, and the log gets the messages that the machines would send alone, each in its order,
none lost and none repeated. So two ways to mix the same requests of each machine make no difference
to any of them. And a machine in range with requests in range is always answered. -/
theorem machines_separate (h : (b.build ds).1 = .ok t) (hplain : ∀ d ∈ ds.active, d.handler? = none)
    {p : Practice η κ σ ρ} {k : κ} {handle : Nat} (hk : p.handle? k = some handle)
    {estate : Estate η κ σ} {slot : Nat} (hshares : estate.Shares slot t k handle) (depth : Nat)
    {turns turns' : List Turn}
    (hsame : ∀ i, (Turn.own i turns).map (·.request) = (Turn.own i turns').map (·.request)) :
    estate.Separates p slot depth handle turns ∧ estate.Separates p slot depth handle turns' ∧
      ∀ i,
        ownedBy i (estate.answers p slot depth turns) =
          ownedBy i (estate.answers p slot depth turns') ∧
        (estate.play p slot depth turns).holdings.machines i =
          (estate.play p slot depth turns').holdings.machines i ∧
        (estate.play p slot depth (Turn.own i turns)).shelf.messages handle =
          (estate.play p slot depth (Turn.own i turns')).shelf.messages handle ∧
        ((estate.holdings.machines i).index < t.stateLimit →
          (∀ turn ∈ Turn.own i turns, turn.request.InRange t) →
          ∀ answer ∈ ownedBy i (estate.answers p slot depth turns),
            ∃ outcome, answer = .ok outcome) := by
  refine ⟨hshares.separates h hplain hk depth turns, hshares.separates h hplain hk depth turns', ?_⟩
  intro i
  obtain ⟨hanswers, hstate⟩ := hshares.own_course h hplain hk depth turns i
  obtain ⟨hanswers', hstate'⟩ := hshares.own_course h hplain hk depth turns' i
  have hmessages := hshares.own_messages h hplain hk depth turns i
  have hmessages' := hshares.own_messages h hplain hk depth turns' i
  rw [← hsame i] at hanswers' hstate' hmessages'
  refine ⟨hanswers.trans hanswers'.symm, hstate.trans hstate'.symm,
    hmessages.trans hmessages'.symm, ?_⟩
  intro hs hrequests answer hanswer
  rw [hanswers] at hanswer
  obtain ⟨effect, heffect, rfl⟩ := List.mem_map.mp hanswer
  refine course_ok h hs ?_ effect heffect
  intro request hrequest
  obtain ⟨turn, hturn, rfl⟩ := List.mem_map.mp hrequest
  exact hrequests turn hturn

/-- Two doors that write to one log, in two orders. -/
theorem doors_separate : ∃ t : Table (List Action) Recorder,
    (build ⟨"door", {}, none⟩ door).1 = .ok t ∧
      let estate : Estate (List Action) Recorder Registers :=
        ⟨#[some (t.setLogger (.log 0))], ⟨fun _ => ⟨1⟩, fun _ => {}⟩, .fresh 1⟩
      let push (machine : Nat) : Turn := ⟨machine, 0, .step ⟨1⟩⟩
      let pull (machine : Nat) : Turn := ⟨machine, 0, .step ⟨2⟩⟩
      estate.Separates Session.practice 0 0 0 [push 0, push 1, pull 0] ∧
        ownedBy 0 (estate.answers Session.practice 0 0 [push 0, push 1, pull 0]) =
          ownedBy 0 (estate.answers Session.practice 0 0 [push 0, pull 0, push 1]) := by
  have hcheck : door.check {} = .ok ⟨3, 3, 6⟩ := by decide
  obtain ⟨t, hbuild, -⟩ := build_ok (κ := Recorder)
    (b := (⟨"door", {}, none⟩ : Blueprint Recorder)) hcheck
  have hbuilt := congrArg Prod.fst hbuild
  refine ⟨t, hbuilt, ?_⟩
  intro estate push pull
  have hshares : estate.Shares 0 t (.log 0) 0 := ⟨rfl, Shelf.fresh_sound 1, 0, rfl⟩
  have hsame : ∀ i, (Turn.own i [push 0, push 1, pull 0]).map (·.request) =
      (Turn.own i [push 0, pull 0, push 1]).map (·.request) := by
    intro i
    by_cases h0 : 0 = i
    · subst h0
      rfl
    · by_cases h1 : 1 = i <;> simp [Turn.own, push, pull, h0, h1]
  obtain ⟨hseparates, -, hown⟩ := machines_separate (p := Session.practice) hbuilt (by decide) rfl
    hshares 0 hsame
  exact ⟨hseparates, (hown 0).1⟩

end Blueprint
end StateMachine

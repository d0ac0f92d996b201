import StateMachine.Proofs.Hearing

namespace StateMachine
variable {η κ σ ρ : Type}

namespace LogEvent

@[simp] theorem messages_written (log log' : Nat) (message : String) (events : List LogEvent) :
    messages log (events ++ [.written log' message]) =
      messages log events ++ if log' = log then [message] else [] := by
  by_cases hlog : log' = log <;> simp [messages, hlog]

@[simp] theorem messages_cleared (log log' : Nat) (events : List LogEvent) :
    messages log (events ++ [.cleared log']) = if log' = log then [] else messages log events := by
  by_cases hlog : log' = log <;> simp [messages, hlog]

end LogEvent

namespace Shelf
variable {shelf : Shelf} {change : LogChange} {log : Nat}

/-- The messages of a log, through whatever handle. -/
def content (shelf : Shelf) (log : Nat) : List String := (shelf.logs[log]?.getD #[]).toList

theorem messages_eq (shelf : Shelf) (handle : Nat) :
    shelf.messages handle = (shelf.handles[handle]?.map shelf.content).getD [] := by
  rw [messages, Shelf.log]
  cases shelf.handles[handle]? <;> rfl

@[simp] theorem handles_apply : (shelf.apply change).handles = shelf.handles := by
  cases change <;> simp only [apply, record, clear, Shelf.change] <;> split <;> rfl

@[simp] theorem size_apply : (shelf.apply change).logs.size = shelf.logs.size := by
  cases change <;> simp only [apply, record, clear, Shelf.change] <;> split <;> simp

/-- Every handle leads to a log. -/
def Sound (shelf : Shelf) : Prop := ∀ log ∈ shelf.handles, log < shelf.logs.size

theorem Sound.lt (h : shelf.Sound) {handle : Nat} (hhandle : shelf.handles[handle]? = some log) :
    log < shelf.logs.size :=
  h log (Array.mem_of_getElem? hhandle)

/-- Every log holds what was written to it since it was last cleared, and a log that is yet to come
has nothing to hold. -/
def Keeps (shelf : Shelf) (events : List LogEvent) : Prop :=
  ∀ log, shelf.content log = LogEvent.messages log events

theorem Sound.content_change (h : shelf.Sound) (handle : Nat) (f : Array String → Array String)
    (log : Nat) :
    (shelf.change handle f).content log =
      if shelf.handles[handle]? = some log then (f (shelf.logs[log]?.getD #[])).toList
      else shelf.content log := by
  unfold Shelf.change content
  cases hhandle : shelf.handles[handle]? with
  | none => simp
  | some log' =>
    have hlt := h.lt hhandle
    dsimp only
    rw [Array.getElem?_modify]
    by_cases heq : log' = log
    · subst heq
      rw [if_pos rfl, if_pos rfl, Array.getElem?_eq_getElem hlt]
      rfl
    · rw [if_neg heq, if_neg fun h => heq (Option.some.inj h)]

/-- One change of a log is one event, if the handle leads anywhere. -/
theorem Keeps.apply {events : List LogEvent} (k : shelf.Keeps events) (h : shelf.Sound)
    (change : LogChange) :
    (shelf.apply change).Keeps (events ++ (shelf.event? change).toList) := by
  intro log
  cases change with
  | record handle message =>
    rw [Shelf.apply, Shelf.record, h.content_change, event?]
    cases hhandle : shelf.handles[handle]? with
    | none => simpa using k log
    | some log' =>
      by_cases heq : log' = log <;> simp [heq, content, ← k log]
  | clear handle =>
    rw [Shelf.apply, Shelf.clear, h.content_change, event?]
    cases hhandle : shelf.handles[handle]? with
    | none => simpa using k log
    | some log' =>
      by_cases heq : log' = log <;> simp [heq, ← k log]

theorem Sound.apply (h : shelf.Sound) (change : LogChange) : (shelf.apply change).Sound := by
  intro log hlog
  rw [handles_apply] at hlog
  rw [size_apply]
  exact h log hlog

@[simp] theorem event?_apply : (shelf.apply change).event? = shelf.event? := by
  funext other
  cases other <;> simp [event?]

/-- The same of any number of changes. -/
theorem Keeps.foldl {events : List LogEvent} (k : shelf.Keeps events) (h : shelf.Sound)
    (changes : List LogChange) :
    (changes.foldl Shelf.apply shelf).Keeps (events ++ changes.filterMap shelf.event?) := by
  induction changes generalizing shelf events with
  | nil => simpa using k
  | cons change rest ih =>
    -- No change moves a handle, so all events can be told on the shelf as it is now.
    have hrest := ih (k.apply h change) (h.apply change)
    rw [event?_apply, List.append_assoc] at hrest
    rw [List.foldl_cons, List.filterMap_cons]
    cases hevent : shelf.event? change <;> simpa [hevent] using hrest

@[simp] theorem handles_foldl (changes : List LogChange) :
    (changes.foldl Shelf.apply shelf).handles = shelf.handles := by
  induction changes generalizing shelf with
  | nil => rfl
  | cons change rest ih => simp [ih]

theorem Sound.foldl (h : shelf.Sound) (changes : List LogChange) :
    (changes.foldl Shelf.apply shelf).Sound := by
  induction changes generalizing shelf with
  | nil => exact h
  | cons change rest ih => exact ih (h.apply change)

/-- A new log is empty, and so was its place. -/
@[simp] theorem content_add (shelf : Shelf) (log : Nat) : shelf.add.content log = shelf.content log := by
  unfold content add
  dsimp only
  rw [Array.getElem?_push]
  by_cases hlog : log = shelf.logs.size
  · rw [if_pos hlog, hlog, Array.getElem?_eq_none (Nat.le_refl _)]
    rfl
  · rw [if_neg hlog]

theorem Sound.add (h : shelf.Sound) : shelf.add.Sound := by
  intro log hlog
  unfold Shelf.add at hlog ⊢
  dsimp only at hlog ⊢
  rw [Array.size_push]
  rcases Array.mem_push.mp hlog with hlog | rfl
  · exact Nat.lt_succ_of_lt (h log hlog)
  · exact Nat.lt_succ_self _

@[simp] theorem content_clone (shelf : Shelf) (handle log : Nat) :
    (shelf.clone handle).content log = shelf.content log := by
  unfold clone
  cases shelf.handles[handle]? <;> rfl

theorem Sound.clone (h : shelf.Sound) (handle : Nat) : (shelf.clone handle).Sound := by
  unfold Shelf.clone
  cases hhandle : shelf.handles[handle]? with
  | none => exact h
  | some log' =>
    intro log hlog
    rcases Array.mem_push.mp hlog with hlog | rfl
    · exact h log hlog
    · exact h.lt hhandle

/-- A call on a log does to the logs what its change says, and nothing if it has none. -/
theorem Keeps.perform {events : List LogEvent} (k : shelf.Keeps events) (h : shelf.Sound)
    (handle : Nat) (call : LogCall) :
    (shelf.perform handle call).2.Keeps
        (events ++ (call.change? handle).toList.filterMap shelf.event?) ∧
      (shelf.perform handle call).2.Sound := by
  have hsame : shelf.Keeps (events ++ []) := by simpa using k
  cases call with
  | «open» => exact ⟨fun log => (content_add shelf log).trans (hsame log), h.add⟩
  | clone => exact ⟨fun log => (content_clone shelf handle log).trans (hsame log), h.clone handle⟩
  | record message =>
    exact ⟨k.foldl h [.record handle message], h.apply (.record handle message)⟩
  | recordViaLogger message =>
    exact ⟨k.foldl h [.record handle message], h.apply (.record handle message)⟩
  | clear => exact ⟨k.foldl h [.clear handle], h.apply (.clear handle)⟩
  | _ => exact ⟨hsame, h⟩

theorem fresh_sound (count : Nat) : (fresh count).Sound := by
  intro log hlog
  simpa [fresh] using hlog

theorem fresh_keeps (count : Nat) : (fresh count).Keeps [] := by
  intro log
  by_cases hlog : log < count <;> simp [fresh, content, hlog, LogEvent.messages]

end Shelf

namespace Table
variable {t : Table η κ}

theorem Represents.withLogger {ds : Description η} (k : t.Represents ds) (logger : Option κ) :
    { t with logger }.Represents ds :=
  ⟨k.lines, k.stateLimit, k.eventLimit, k.cells_size, k.cells, k.states_size, k.states,
    k.events_size, k.events⟩

theorem Represents.equip {ds : Description η} (k : t.Represents ds) (f : η → Handler σ ρ)
    (logger : Option (Logger σ ρ)) : (t.equip f logger).Represents (ds.map (Line.map f)) :=
  (k.map f _).withLogger logger

/-- A table at work tells its moves by the same names. -/
theorem announcement_equip (t : Table η κ) (f : η → Handler σ ρ) (logger : Option (Logger σ ρ))
    (s target : StateId) (e : EventId) :
    (t.equip f logger).announcement s target e = t.announcement s target e := by
  have hname : ∀ s, (t.equip f logger).stateText s = t.stateText s := by
    intro s
    simp [stateText, stateName?, Table.equip, Table.map, Function.comp_def]
  rw [announcement, announcement, hname, hname]
  rfl

end Table

namespace Practice
variable (p : Practice η κ σ ρ)

/-- What is noted on a table when something happens changes the logs as the practice has it. -/
theorem filterMap_noted (t : Table η κ) (happening : Happening σ ρ) :
    ((t.equip p.handler (t.logger.map p.logger)).noted happening).filterMap p.change? =
      p.hears t happening := by
  cases happening with
  | noted note => cases hchange : p.change? note <;> simp [Table.noted, hears, hchange]
  | passed s target e c =>
    rw [Table.noted, hears]
    simp only [Table.announcement_equip]
    have hlogger : (t.equip p.handler (t.logger.map p.logger)).logger = t.logger.map p.logger := rfl
    rw [hlogger]
    cases t.logger with
    | none => rfl
    | some k =>
      dsimp only [Option.map_some]
      cases hhandle : p.handle? k with
      | none => rfl
      | some handle =>
        obtain ⟨note, hnote, hchange⟩ := p.records k handle hhandle c (t.announcement s target e)
        rw [hnote]
        simp [hchange]

end Practice

namespace Estate
variable {p : Practice η κ σ ρ} {estate : Estate η κ σ} {events : List LogEvent}

/-- What is known of an estate whose logs have come to be as certain events say. -/
structure Accounts (estate : Estate η κ σ) (events : List LogEvent) : Prop where
  built : ∀ slot t, estate.table? slot = some t → ∃ ds, t.Represents ds
  sound : estate.shelf.Sound
  keeps : estate.shelf.Keeps events

/-- The logs change as what happens in the course of an order tells. -/
theorem Accounts.changes_eq (k : estate.Accounts events) (p : Practice η κ σ ρ)
    (order : Order η κ σ ρ) : estate.changes p order = estate.told p order := by
  cases order with
  | perform slot machine context depth work =>
    rw [changes, told]
    cases ht : estate.table? slot with
    | none => rfl
    | some t =>
      obtain ⟨ds, hds⟩ := k.built slot t ht
      have hnotes := (hds.equip p.handler (t.logger.map p.logger)).notes_eq ⟨depth, work,
        estate.holdings.machines machine, estate.holdings.contexts context⟩
      have htold := congrArg (List.filterMap p.change?) hnotes
      rw [List.filterMap_flatMap] at htold
      simp only [p.filterMap_noted t] at htold
      exact htold
  | _ => rfl

theorem table?_setTable {slot slot' : Nat} {table : Option (Table η κ)} {t : Table η κ}
    (h : (estate.setTable slot table).table? slot' = some t) :
    table = some t ∨ estate.table? slot' = some t := by
  rw [table?, setTable, Array.getElem?_setIfInBounds] at h
  by_cases hslot : slot = slot'
  · rw [if_pos hslot] at h
    by_cases hlt : slot < estate.tables.size
    · rw [if_pos hlt] at h
      exact .inl h
    · rw [if_neg hlt] at h
      cases h
  · rw [if_neg hslot] at h
    exact .inr h

/-- A slot is filled by a build, or by the table that was there with another logger. -/
theorem Accounts.setTable (k : estate.Accounts events) (slot : Nat) {table : Option (Table η κ)}
    (h : ∀ t, table = some t → ∃ ds, t.Represents ds) :
    (estate.setTable slot table).Accounts events := by
  refine ⟨?_, k.sound, k.keeps⟩
  intro slot' t ht
  rcases table?_setTable ht with ht | ht
  · exact h t ht
  · exact k.built slot' t ht

theorem Accounts.build (k : estate.Accounts events) (b : Blueprint κ) (ds : Description η) :
    ∀ (slot : Nat) (t : Table η κ),
      (estate.tables.push (b.build ds).1.toOption)[slot]?.join = some t → ∃ ds, t.Represents ds := by
  intro slot t ht
  rw [Array.getElem?_push] at ht
  by_cases hslot : slot = estate.tables.size
  · rw [if_pos hslot] at ht
    cases hbuild : (b.build ds).1 with
    | error error =>
      rw [hbuild] at ht
      cases ht
    | ok t' =>
      rw [hbuild] at ht
      obtain rfl : t' = t := Option.some.inj ht
      exact ⟨ds, (Blueprint.represents_of_build hbuild).2.1⟩
  · rw [if_neg hslot] at ht
    exact k.built slot t ht

/-- An order that leaves the logs alone. -/
theorem Accounts.same (k : estate.Accounts events) : estate.Accounts (events ++ []) := by
  rwa [List.append_nil]

theorem Accounts.onTable (k : estate.Accounts events) {slot : Nat}
    {f : Table η κ → Estate η κ σ} {later : List LogEvent}
    (hnone : estate.table? slot = none → later = [])
    (hsome : ∀ t, estate.table? slot = some t → (f t).Accounts (events ++ later)) :
    (estate.onTable slot f).Accounts (events ++ later) := by
  unfold Estate.onTable
  cases ht : estate.table? slot with
  | none =>
    rw [hnone ht]
    exact k.same
  | some t => exact hsome t ht

/-- One order adds its own events to those before. -/
theorem Accounts.perform (k : estate.Accounts events) (p : Practice η κ σ ρ) (order : Order η κ σ ρ) :
    (estate.perform p order).Accounts (events ++ estate.events p order) := by
  cases order with
  | build b ds => exact same ⟨k.build b ds, k.sound, k.keeps⟩
  | setLogger slot logger =>
    refine k.onTable (fun _ => rfl) fun t ht => same (k.setTable slot ?_)
    intro t' ht'
    obtain rfl := Option.some.inj ht'
    obtain ⟨ds, hds⟩ := k.built slot t ht
    exact ⟨ds, hds.withLogger (some logger)⟩
  | clearLogger slot =>
    refine k.onTable (fun _ => rfl) fun t ht => same (k.setTable slot ?_)
    intro t' ht'
    obtain rfl := Option.some.inj ht'
    obtain ⟨ds, hds⟩ := k.built slot t ht
    exact ⟨ds, hds.withLogger none⟩
  | destroy slot =>
    exact k.onTable (fun _ => rfl) fun t _ => same (k.setTable slot fun t' ht' => by cases ht')
  | perform slot machine context depth work =>
    rw [Estate.events, ← k.changes_eq p]
    refine k.onTable (fun ht => ?_) fun t _ => ⟨k.built, k.sound.foldl _, k.keeps.foldl k.sound _⟩
    simp only [changes, ht]
    rfl
  | put machine s => exact same ⟨k.built, k.sound, k.keeps⟩
  | give context c => exact same ⟨k.built, k.sound, k.keeps⟩
  | log handle call =>
    obtain ⟨hkeeps, hsound⟩ := k.keeps.perform k.sound handle call
    exact ⟨k.built, hsound, hkeeps⟩

/-- Any number of orders, one after another. -/
theorem Accounts.after (k : estate.Accounts events) (p : Practice η κ σ ρ)
    (orders : List (Order η κ σ ρ)) :
    (estate.after p orders).Accounts (events ++ estate.chronicle p orders) := by
  induction orders generalizing estate events with
  | nil => exact same k
  | cons order rest ih =>
    have hrest := ih (k.perform p order)
    rw [List.append_assoc] at hrest
    exact hrest

theorem start_accounts (holdings : Holdings σ) (count : Nat) :
    (start holdings count : Estate η κ σ).Accounts [] := by
  refine ⟨?_, Shelf.fresh_sound count, Shelf.fresh_keeps count⟩
  intro slot t ht
  cases ht

/-- Whoever asks for the messages of a log gets what its events tell. -/
theorem Accounts.messages_eq (k : estate.Accounts events) (handle : Nat) :
    estate.shelf.messages handle =
      match estate.shelf.handles[handle]? with
      | none => []
      | some log => LogEvent.messages log events := by
  rw [Shelf.messages_eq]
  cases estate.shelf.handles[handle]? with
  | none => rfl
  | some log => exact k.keeps log

/-- A log holds exactly the moves that it was attached to and the direct records. At any moment, that is
after any orders and after any number of the changes that the next order makes, whoever asks a log
for its messages through any handle gets what was written to it since it was last cleared: one
message for every call to enter a state that found its numbers in range, on a table whose logger
belonged to this log by then, and what the owner or a handler recorded, in the order in which it
happened. -/
theorem logs_exact (p : Practice η κ σ ρ) (holdings : Holdings σ) (count : Nat)
    (orders : List (Order η κ σ ρ)) (order : Order η κ σ ρ) (moment handle : Nat) :
    let origin : Estate η κ σ := start holdings count
    let estate := origin.after p orders
    (((estate.changes p order).take moment).foldl Shelf.apply estate.shelf).messages handle =
      match estate.shelf.handles[handle]? with
      | none => []
      | some log => LogEvent.messages log (origin.chronicle p orders ++
          ((estate.told p order).take moment).filterMap estate.shelf.event?) := by
  intro origin estate
  have k := (start_accounts holdings count).after p orders
  rw [List.nil_append] at k
  let now : Estate η κ σ := { estate with
    shelf := ((estate.told p order).take moment).foldl Shelf.apply estate.shelf }
  have hnow : now.Accounts _ := ⟨k.built, k.sound.foldl _, k.keeps.foldl k.sound _⟩
  have hmessages := hnow.messages_eq handle
  rw [Shelf.handles_foldl] at hmessages
  rw [k.changes_eq p order]
  exact hmessages

end Estate
end StateMachine

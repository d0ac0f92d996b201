import StateMachine.Proofs.Acceptance

namespace StateMachine

namespace Description
variable {η : Type} {ds : Description η} {settings : Settings}

theorem contextAt_zero : ds.contextAt 0 = none := rfl

theorem contextAt_selected {i : Nat} {s : StateId} (h : ds.contextAt i = some s) :
    s.isReserved = false ∧ ∃ d ∈ ds.active, d.selected? = some s := by
  obtain ⟨hfind, hs⟩ := Option.filter_eq_some_iff.mp h
  obtain ⟨d, hd, hselected⟩ := List.exists_of_findSome?_eq_some hfind
  refine ⟨by simpa using hs, d, ?_, hselected⟩
  exact List.mem_of_mem_take (List.mem_reverse.mp hd)

theorem labelsBefore_labelled {i : Nat} {e : EventId} (h : ds.labelsBefore e i = true) :
    ∃ d ∈ ds.active, ∃ name, d.label? .event = some (e, name) := by
  obtain ⟨d, hd, hlabel⟩ := List.any_eq_true.mp h
  refine ⟨d, List.mem_of_mem_take hd, ?_⟩
  cases hl : d.label? .event with
  | none => simp [hl] at hlabel
  | some labelled =>
    obtain ⟨e', name⟩ := labelled
    have he : e' = e := by simpa [hl] using hlabel
    exact ⟨name, by rw [he]⟩

/-- What the first pass establishes is what the second takes for granted. -/
theorem Lawful.fits (h : ds.Lawful settings) :
    ds.Fits (ds.topState + 1) (ds.topEvent + 1) settings.width := by
  refine ⟨?_, ?_, ?_⟩
  · intro d hd s hs
    exact Nat.lt_succ_of_le (index_le_topState hd hs)
  · intro d hd e name he
    exact Nat.lt_succ_of_le (index_le_topEvent hd he)
  · intro r hr
    obtain ⟨s, hs⟩ := Option.isSome_iff_exists.mp (h.context r hr)
    obtain ⟨-, d, hd, hselected⟩ := contextAt_selected hs
    obtain ⟨d', hd', name, hlabel⟩ := labelsBefore_labelled (h.event r hr).2
    refine ⟨?_, h.position r hr, Nat.lt_succ_of_le (index_le_topEvent hd' hlabel), s, hs,
      Nat.lt_succ_of_le (index_le_topState hd hselected)⟩
    intro h₀
    rw [h₀, contextAt_zero] at hs
    cases hs

/-- The cells of a lawful description can be counted. -/
theorem Lawful.cells_extent (h : ds.Lawful settings) : ∃ n, ds.extent.cells = some n ∧
    n.toNat = ds.extent.states.toNat * ds.extent.events.toNat := by
  cases hn : ds.extent.cells with
  | some n => exact ⟨n, rfl, Extent.cells_toNat hn⟩
  | none =>
    have hfit := h.cells
    have hlarge := Extent.cells_eq_none.mp hn
    rw [states_extent, events_extent] at hlarge
    have := capacity_lt_word settings.width
    omega

theorem nameOf_ne_empty {space : Space} {n : Number space}
    (h : n.isReserved = false → (ds.label? n).getD "" ≠ "") : ds.nameOf n ≠ "" := by
  unfold nameOf
  cases hn : n.isReserved with
  | true =>
    rw [if_pos rfl]
    decide
  | false => exact h hn

end Description

namespace Filling
variable {η : Type} {ds : Description η} {S E : Nat} {width : CellWidth}

theorem StatesHold.named {states : Array (StateSlot η)} (k : StatesHold states ds S)
    (s : StateId) (hs : s.index < S) :
    (states.modify 0 fun slot => { slot with name := reservedName })[s.index]? =
      some ⟨ds.nameOf s, ds.entryHandler? s⟩ := by
  rw [Array.getElem?_modify, k.get_eq s hs, Description.nameOf]
  cases h₀ : s.isReserved with
  | true => simp [Number.isReserved_iff.mp h₀]
  | false => simp [(Number.index_ne_zero h₀).symm]

theorem EventsHold.named {events : Array String} (k : EventsHold events ds E) (e : EventId)
    (he : e.index < E) :
    (events.modify 0 fun _ => reservedName)[e.index]? = some (ds.nameOf e) := by
  rw [Array.getElem?_modify, k.get_eq e he, Description.nameOf]
  cases h₀ : e.isReserved with
  | true => simp [Number.isReserved_iff.mp h₀]
  | false => simp [(Number.index_ne_zero h₀).symm]

/-- What holds at every number of an array holds of all its elements. -/
theorem forall_mem_of_numbered {α : Type} {space : Space} {xs : Array α} {n : Nat} {P : α → Prop}
    (hsize : xs.size = n) (hn : n ≤ 65536)
    (h : ∀ m : Number space, m.index < n → ∃ x, xs[m.index]? = some x ∧ P x) :
    ∀ x ∈ xs, P x := by
  intro x hx
  obtain ⟨i, hi, rfl⟩ := Array.mem_iff_getElem.mp hx
  have hindex : (Number.ofNat i : Number space).index = i := Number.index_ofNat (by omega)
  obtain ⟨x, hget, hx⟩ := h (.ofNat i) (by omega)
  rw [hindex, Array.getElem?_eq_getElem hi, Option.some.injEq] at hget
  rw [hget]
  exact hx

/-- Closing a table never finds a number without a name, if all labels have one. -/
theorem Holds.close {filling : Filling η} (k : filling.Holds ds S E width)
    (hS : 0 < S ∧ S ≤ 65536) (hE : 0 < E ∧ E ≤ 65536)
    (hstates : ∀ s : StateId, s.index < S → ds.nameOf s ≠ "")
    (hevents : ∀ e : EventId, e.index < E → ds.nameOf e ≠ "") :
    ∃ filling', filling.close = .ok filling' ∧ filling'.cells = filling.cells ∧
      filling'.states.size = S ∧ filling'.events.size = E ∧
      (∀ s : StateId, s.index < S →
        filling'.states[s.index]? = some ⟨ds.nameOf s, ds.entryHandler? s⟩) ∧
      ∀ e : EventId, e.index < E → filling'.events[e.index]? = some (ds.nameOf e) := by
  have hss := k.states.named
  have hes := k.events.named
  have hssize : (filling.states.modify 0 fun slot => { slot with name := reservedName }).size = S :=
    Array.size_modify.trans k.states.size_eq
  have hesize : (filling.events.modify 0 fun _ => reservedName).size = E :=
    Array.size_modify.trans k.events.size_eq
  have hsnamed := forall_mem_of_numbered (P := fun slot : StateSlot η => slot.name ≠ "") hssize hS.2
    fun (s : StateId) hs => ⟨_, hss s hs, hstates s hs⟩
  have henamed := forall_mem_of_numbered (P := fun name : String => name ≠ "") hesize hE.2
    fun (e : EventId) he => ⟨_, hes e he, hevents e he⟩
  have hnames : (filling.states.modify 0 fun slot =>
      { slot with name := reservedName }).findIdx? (·.name.isEmpty) = none := by
    apply Array.findIdx?_eq_none_iff.mpr
    intro slot hslot
    simpa using hsnamed slot hslot
  have hnames' : (filling.events.modify 0 fun _ => reservedName).findIdx? (·.isEmpty) = none := by
    apply Array.findIdx?_eq_none_iff.mpr
    intro name hname
    simpa using henamed name hname
  refine ⟨⟨filling.context, filling.cells,
    filling.states.modify 0 fun slot => { slot with name := reservedName },
    filling.events.modify 0 fun _ => reservedName⟩, ?_, rfl, hssize, hesize, hss, hes⟩
  have hu := update_ok (k.states.size_eq ▸ hS.1) fun slot : StateSlot η =>
    { slot with name := reservedName }
  have hu' := update_ok (k.events.size_eq ▸ hE.1) fun _ : String => reservedName
  simp only [Filling.close, hu, hu', bind, Except.bind, hnames, hnames']
  rfl

end Filling

/-- A table agrees with a description, cell by cell and slot by slot. -/
structure Table.Represents {η κ : Type} (t : Table η κ) (ds : Description η) : Prop where
  lines : t.lines = ds.toArray
  stateLimit : t.stateLimit = ds.topState + 1
  eventLimit : t.eventLimit = ds.topEvent + 1
  cells_size : t.cells.size = t.stateLimit * t.eventLimit
  cells : ∀ (s : StateId) (e : EventId), s.index < t.stateLimit → e.index < t.eventLimit →
    t.cells.get (s.index * t.eventLimit + e.index) = .ok ((ds.rule? s e).map (·.position))
  states_size : t.states.size = t.stateLimit
  states : ∀ s : StateId, s.index < t.stateLimit →
    t.states[s.index]? = some ⟨ds.nameOf s, ds.entryHandler? s⟩
  events_size : t.events.size = t.eventLimit
  events : ∀ e : EventId, e.index < t.eventLimit → t.events[e.index]? = some (ds.nameOf e)

namespace Description
variable {η κ : Type} {ds : Description η} {settings : Settings}

theorem fits_active {S E : Nat} {width : CellWidth} (h : ds.Fits S E width) :
    ds.active.Fits S E width := by
  refine ⟨?_, ?_, ?_⟩
  · simpa only [active_active] using h.selected
  · simpa only [active_active] using h.labelled
  · simpa only [rules_active, contextAt_active] using h.rule

theorem nameOf_active {space : Space} (ds : Description η) (n : Number space) :
    ds.active.nameOf n = ds.nameOf n := by
  rw [nameOf, label?_active, nameOf]

theorem Lawful.state_named (h : ds.Lawful settings) {s : StateId} (hs : s.index ≤ ds.topState) :
    ds.nameOf s ≠ "" :=
  nameOf_ne_empty fun h₀ => h.states s h₀ hs

theorem Lawful.event_named (h : ds.Lawful settings) {e : EventId} (he : e.index ≤ ds.topEvent) :
    ds.nameOf e ≠ "" :=
  nameOf_ne_empty fun h₀ => h.events e h₀ he

/-- The second pass over a lawful description meets no defect, and leaves a table of it. -/
theorem Lawful.fill {b : Blueprint κ} (h : ds.Lawful b.settings) :
    ∃ t, b.fill ds ds.extent = .ok t ∧ t.Represents ds ∧ t.name = b.name ∧
      t.extent = ds.extent ∧ t.width = b.settings.width ∧ t.logger = b.logger := by
  have hS := states_extent ds
  have hE := events_extent ds
  have hs := ds.topState_lt
  have he := ds.topEvent_lt
  obtain ⟨n, hn, hcount⟩ := h.cells_extent
  have htake : ds.take ds.extent.lines = ds.active := by rw [lines_extent, take_active_length]
  have hfits : ds.active.Fits ds.extent.states.toNat ds.extent.events.toNat b.settings.width := by
    rw [hS, hE]
    exact fits_active h.fits
  obtain ⟨filling, hread, k⟩ := Filling.ofLines_holds hcount ds.active_unstopped hfits
  obtain ⟨filling', hclose, hcells, hstates_size, hevents_size, hstates, hevents⟩ := k.close
    ⟨by omega, by omega⟩ ⟨by omega, by omega⟩
    (fun s hlt => by rw [nameOf_active]; exact h.state_named (by omega))
    (fun e hlt => by rw [nameOf_active]; exact h.event_named (by omega))
  refine ⟨⟨b.name, ds.toArray, ds.extent, filling'.cells, filling'.states, filling'.events,
    b.logger⟩, ?_, ⟨rfl, hS, hE, ?_, ?_, hstates_size, ?_, hevents_size, ?_⟩, rfl, rfl, ?_, rfl⟩
  · simp only [Blueprint.fill, hn, htake, hread, bind, Except.bind, hclose]
    rfl
  · rw [hcells]
    exact k.cells.size_eq
  · intro s e hlt hlt'
    rw [hcells, ← rule?_active]
    exact k.cells.get_eq s e hlt hlt'
  · intro s hlt
    rw [← nameOf_active, ← entryHandler?_active]
    exact hstates s hlt
  · intro e hlt
    rw [← nameOf_active]
    exact hevents e hlt
  · rw [Table.width, hcells]
    exact k.cells.width_eq

end Description

namespace Table
variable {η κ : Type} {t : Table η κ} {ds : Description η} {settings : Settings}

theorem Represents.states_named (k : t.Represents ds) (h : ds.Lawful settings) :
    ∀ slot ∈ t.states, slot.name ≠ "" := by
  have hlimit := k.stateLimit
  have hlt := ds.topState_lt
  refine Filling.forall_mem_of_numbered k.states_size (by omega) fun (s : StateId) hs => ?_
  exact ⟨_, k.states s hs, h.state_named (by omega)⟩

theorem Represents.events_named (k : t.Represents ds) (h : ds.Lawful settings) :
    ∀ name ∈ t.events, name ≠ "" := by
  have hlimit := k.eventLimit
  have hlt := ds.topEvent_lt
  refine Filling.forall_mem_of_numbered k.events_size (by omega) fun (e : EventId) he => ?_
  exact ⟨_, k.events e he, h.event_named (by omega)⟩

end Table

namespace Blueprint
variable {η κ : Type}

/-- What an accepted description is built into: a table of the extent and width that were checked,
with a cell for every pair and a name for every number. No line asks for more than that. -/
structure Delivers (b : Blueprint κ) (ds : Description η) (x : Extent) (t : Table η κ) : Prop where
  name : t.name = b.name
  extent : t.extent = x
  width : t.width = b.settings.width
  lines : x.lines = ds.active.length
  cells : ∃ n, x.cells = some n ∧ n.toNat = x.states.toNat * x.events.toNat ∧
    t.cells.size = n.toNat
  fits : ds.Fits x.states.toNat x.events.toNat b.settings.width
  states : t.states.size = x.states.toNat ∧ ∀ slot ∈ t.states, slot.name ≠ ""
  events : t.events.size = x.events.toNat ∧ ∀ name ∈ t.events, name ≠ ""

theorem build_ok {b : Blueprint κ} {ds : Description η} {x : Extent}
    (h : ds.check b.settings = .ok x) :
    ∃ t, b.build ds = (.ok t, [.built b.name x]) ∧ t.Represents ds ∧ t.name = b.name ∧
      t.extent = x ∧ t.width = b.settings.width ∧ t.logger = b.logger := by
  obtain ⟨hlawful, rfl⟩ := Description.check_eq_ok_iff.mp h
  obtain ⟨t, hfill, hrest⟩ := hlawful.fill
  refine ⟨t, ?_, hrest⟩
  simp only [build, h, hfill]

theorem build_rejected {b : Blueprint κ} {ds : Description η} {problems : List Problem}
    (h : ds.check b.settings = .error problems) :
    b.build ds = (.error (.rejected b.name problems), [.rejected b.name problems.length]) := by
  simp only [build, h]

/-- Every table comes from a lawful description and represents it. -/
theorem represents_of_build {b : Blueprint κ} {ds : Description η} {t : Table η κ}
    (h : (b.build ds).1 = .ok t) :
    ds.Lawful b.settings ∧ t.Represents ds ∧ t.name = b.name ∧ t.logger = b.logger := by
  cases hcheck : ds.check b.settings with
  | error problems =>
    rw [build_rejected hcheck] at h
    cases h
  | ok x =>
    obtain ⟨t', hbuild, k, hname, -, -, hlogger⟩ := build_ok hcheck
    rw [hbuild] at h
    obtain rfl : t' = t := Except.ok.inj h
    exact ⟨(Description.check_eq_ok_iff.mp hcheck).1, k, hname, hlogger⟩

/-- What is known of a table from the blueprint and the description that it was built from. -/
theorem measures_of_build {b : Blueprint κ} {ds : Description η} {t : Table η κ}
    (h : (b.build ds).1 = .ok t) :
    b.build ds = (.ok t, [.built b.name ds.extent]) ∧ t.extent = ds.extent ∧
      t.width = b.settings.width := by
  cases hcheck : ds.check b.settings with
  | error problems =>
    rw [build_rejected hcheck] at h
    cases h
  | ok x =>
    obtain ⟨t', hbuild, -, -, hextent, hwidth, -⟩ := build_ok hcheck
    rw [hbuild] at h
    obtain rfl : t' = t := Except.ok.inj h
    obtain rfl := (Description.check_eq_ok_iff.mp hcheck).2
    exact ⟨hbuild, hextent, hwidth⟩

/-- The first pass alone decides what comes of a build: nothing goes wrong in the second. -/
theorem build_spec (b : Blueprint κ) (ds : Description η) :
    match ds.check b.settings with
    | .ok x => ∃ t, b.build ds = (.ok t, [.built b.name x]) ∧ b.Delivers ds x t
    | .error problems =>
      b.build ds = (.error (.rejected b.name problems), [.rejected b.name problems.length]) := by
  cases h : ds.check b.settings with
  | error problems => exact build_rejected h
  | ok x =>
    obtain ⟨t, hbuild, k, hname, rfl, hwidth, -⟩ := build_ok h
    obtain ⟨hlawful, hx⟩ := Description.check_eq_ok_iff.mp h
    obtain ⟨n, hn, hcount⟩ := hlawful.cells_extent
    refine ⟨t, hbuild, hname, rfl, hwidth, by rw [hx, Description.lines_extent], ⟨n, ?_, ?_, ?_⟩,
      ?_, ⟨k.states_size, ?_⟩, k.events_size, ?_⟩
    · rw [hx, hn]
    · rw [hx, hcount]
    · rw [k.cells_size, hcount, ← hx]
      rfl
    · rw [hx, Description.states_extent, Description.events_extent]
      exact hlawful.fits
    · exact k.states_named hlawful
    · exact k.events_named hlawful

end Blueprint
end StateMachine

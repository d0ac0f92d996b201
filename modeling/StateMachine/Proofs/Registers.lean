import Mathlib.Data.List.Dedup
import StateMachine.Proofs.Blocks
import StateMachine.Proofs.Enumerations
import StateMachine.Proofs.Renumbering

namespace StateMachine
variable {η κ : Type} {space : Space}

theorem Line.nameFor_label (n : Number space) (name : String) :
    (Line.label n name : Line η).nameFor n = some name := by
  rw [nameFor, label?_label]
  exact if_pos rfl

namespace Description
variable {ds : Description η} {settings : Settings} {n : Number space} {name : String}

/-- The numbers that are labelled, as often as they are. -/
def labelled (ds : Description η) (space : Space) : List (Number space) :=
  (ds.active.filterMap (Line.label? space)).map Prod.fst

/-- A number is labelled with a name, and not labelled again after that. -/
def LastLabel (ds : Description η) (n : Number space) (name : String) : Prop :=
  ∃ before after, ds.active = before ++ .label n name :: after ∧
    ∀ other, .label n other ∉ after

theorem lastLabel_of_label? (h : ds.label? n = some name) : ds.LastLabel n name := by
  rw [label?_eq_findSome?, List.findSome?_eq_some_iff] at h
  obtain ⟨after, d, before, hsplit, hname, hafter⟩ := h
  obtain rfl := Line.nameFor_eq_some hname
  refine ⟨before.reverse, after.reverse, ?_, fun other hother => ?_⟩
  · have hlines := congrArg List.reverse hsplit
    simpa using hlines
  · have hnone := hafter _ (List.mem_reverse.mp hother)
    rw [Line.nameFor_label] at hnone
    cases hnone

theorem mem_labelled :
    n ∈ ds.labelled space ↔ ∃ d ∈ ds.active, ∃ name, d.label? space = some (n, name) := by
  rw [labelled, List.mem_map]
  constructor
  · intro h
    obtain ⟨⟨m, name⟩, hm, rfl⟩ := h
    obtain ⟨d, hd, hlabel⟩ := List.mem_filterMap.mp hm
    exact ⟨d, hd, name, hlabel⟩
  · intro h
    obtain ⟨d, hd, name, hlabel⟩ := h
    exact ⟨(n, name), List.mem_filterMap.mpr ⟨d, hd, hlabel⟩, rfl⟩

/-- A number up to the top has a last label, which is not empty. -/
theorem Lawful.exists_label (h : ds.Lawful settings) (hn : n.isReserved = false)
    (hle : n.index ≤ ds.top space) : ∃ name, ds.label? n = some name ∧ name ≠ "" := by
  have hnamed := h.named hle
  rw [nameOf, hn] at hnamed
  cases hlabel : ds.label? n with
  | none => exact absurd (congrArg (·.getD "") hlabel) hnamed
  | some name =>
    refine ⟨name, rfl, fun hempty => hnamed ?_⟩
    rw [hlabel, hempty]
    rfl

/-- The labelled numbers are those from 1 to the top. Lines that select a state may raise the top as
well, but only to a number that has a label somewhere. -/
theorem Lawful.labelled_perm (h : ds.Lawful settings) (space : Space) :
    ((ds.labelled space).dedup.map Number.index).Perm (List.range' 1 (ds.top space)) := by
  have hnodup : ((ds.labelled space).dedup.map Number.index).Nodup :=
    (List.nodup_dedup _).map fun _ _ => Number.index_inj.mp
  refine (List.perm_ext_iff_of_nodup hnodup List.nodup_range').mpr fun i => ?_
  rw [List.mem_map, List.mem_range'_1]
  constructor
  · intro hi
    obtain ⟨n, hn, rfl⟩ := hi
    obtain ⟨d, hd, name, hlabel⟩ := mem_labelled.mp (List.mem_dedup.mp hn)
    have hpos := Number.index_ne_zero (h.unreserved_label hd hlabel)
    have hle := index_le_top hd hlabel
    omega
  · intro hi
    have htop := ds.top_lt space
    have hindex : (Number.ofNat i : Number space).index = i := Number.index_ofNat (by omega)
    obtain ⟨name, hlabel, -⟩ := h.exists_label (n := .ofNat i)
      (Number.isReserved_ofNat (by omega) (by omega)) (by omega)
    rw [label?_eq_findSome?] at hlabel
    obtain ⟨d, hd, hname⟩ := List.exists_of_findSome?_eq_some hlabel
    obtain rfl := Line.nameFor_eq_some hname
    refine ⟨.ofNat i, List.mem_dedup.mpr (mem_labelled.mpr ?_), hindex⟩
    exact ⟨_, List.mem_reverse.mp hd, name, Line.label?_label _ _⟩

/-- A register of the names of one space, and the two ways to look into it. It has no gap and no name
that is not the last label of its number. Whatever is asked gives the same name for a number in range,
and for any other a fault or nothing. -/
structure Registers (ds : Description η) (space : Space) (limit : Nat) (names : List String)
    (name : Number space → Except Fault String) (name? : Number space → Option String)
    (fault : Number space → Fault) : Prop where
  limit_eq : limit = (ds.labelled space).dedup.length + 1
  length_eq : names.length = limit
  reserved : names[0]? = some "none"
  last : ∀ n : Number space, n.isReserved = false → n.index < limit →
    ∃ text, ds.LastLabel n text ∧ text ≠ "" ∧ names[n.index]? = some text
  within : ∀ n : Number space, n.index < limit →
    ∃ text, names[n.index]? = some text ∧ name n = .ok text ∧ name? n = some text
  outside : ∀ n : Number space, limit ≤ n.index →
    names[n.index]? = none ∧ name n = .error (fault n) ∧ name? n = none

theorem Lawful.registers (h : ds.Lawful settings) {limit : Nat} {names : List String}
    {name : Number space → Except Fault String} {name? : Number space → Option String}
    {fault : Number space → Fault} (hlimit : limit = ds.top space + 1)
    (hnames : names = (List.range limit).map fun n => ds.nameOf (.ofNat n : Number space))
    (hname : ∀ n, name n = if n.index < limit then .ok (ds.nameOf n) else .error (fault n))
    (hname? : ∀ n, name? n = if n.index < limit then some (ds.nameOf n) else none) :
    ds.Registers space limit names name name? fault := by
  have hslot (n : Number space) (hn : n.index < limit) : names[n.index]? = some (ds.nameOf n) := by
    rw [hnames, List.getElem?_map, List.getElem?_range hn, Option.map_some, n.ofNat_index]
  refine ⟨?_, ?_, ?_, fun n hn hlt => ?_, fun n hlt => ?_, fun n hle => ?_⟩
  · have hlength := (h.labelled_perm space).length_eq
    rw [List.length_map, List.length_range'] at hlength
    omega
  · rw [hnames, List.length_map, List.length_range]
  · exact hslot .reserved (hlimit ▸ Nat.succ_pos _)
  · obtain ⟨text, hlabel, hne⟩ := h.exists_label hn (by omega)
    refine ⟨text, lastLabel_of_label? hlabel, hne, ?_⟩
    rw [hslot n hlt, nameOf, hn, hlabel]
    rfl
  · exact ⟨ds.nameOf n, hslot n hlt, by rw [hname, if_pos hlt], by rw [hname?, if_pos hlt]⟩
  · have hout : ¬ n.index < limit := Nat.not_lt.mpr hle
    refine ⟨List.getElem?_eq_none ?_, by rw [hname, if_neg hout], by rw [hname?, if_neg hout]⟩
    rw [hnames, List.length_map, List.length_range]
    exact hle

end Description

namespace Table
variable {t : Table η κ} {ds : Description η}

theorem Represents.stateName_eq_ite (k : t.Represents ds) (s : StateId) :
    t.stateName s = if s.index < t.stateLimit then .ok (ds.nameOf s)
      else .error (.stateRange t.name s t.stateLimit) := by
  split_ifs with hs
  · exact k.stateName_eq hs
  · rw [stateName, slot, checkState, if_neg hs]
    rfl

theorem Represents.eventName_eq_ite (k : t.Represents ds) (e : EventId) :
    t.eventName e = if e.index < t.eventLimit then .ok (ds.nameOf e)
      else .error (.eventRange t.name e t.eventLimit) := by
  split_ifs with he
  · exact k.eventName_eq he
  · rw [eventName, checkEvent, if_neg he]
    rfl

theorem Represents.stateName?_eq_ite (k : t.Represents ds) (s : StateId) :
    t.stateName? s = if s.index < t.stateLimit then some (ds.nameOf s) else none := by
  split_ifs with hs
  · rw [stateName?, k.states s hs]
    rfl
  · rw [stateName?, Array.getElem?_eq_none (k.states_size ▸ Nat.not_lt.mp hs)]
    rfl

theorem Represents.eventName?_eq_ite (k : t.Represents ds) (e : EventId) :
    t.eventName? e = if e.index < t.eventLimit then some (ds.nameOf e) else none := by
  split_ifs with he
  · exact k.events e he
  · exact Array.getElem?_eq_none (k.events_size ▸ Nat.not_lt.mp he)

/-- The names of a table are dense and exact in both spaces, and its summary shows the same names. -/
theorem registers_exact {b : Blueprint κ} (h : (b.build ds).1 = .ok t) :
    ds.Registers .state t.stateLimit t.stateNames t.stateName t.stateName?
        (fun s => .stateRange t.name s t.stateLimit) ∧
      ds.Registers .event t.eventLimit t.eventNames t.eventName t.eventName?
        (fun e => .eventRange t.name e t.eventLimit) ∧
      ∃ summary, t.summary = .ok summary ∧ summary.states = t.stateNames ∧
        summary.events = t.eventNames := by
  obtain ⟨hlawful, k, -, -⟩ := Blueprint.represents_of_build h
  refine ⟨?_, ?_, _, k.summary_eq, rfl, rfl⟩
  · exact hlawful.registers k.stateLimit k.stateNames_eq k.stateName_eq_ite k.stateName?_eq_ite
  · exact hlawful.registers k.eventLimit k.eventNames_eq k.eventName_eq_ite k.eventName?_eq_ite

end Table

/-- State 2 is labelled before state 1 and twice, and the first label of the event is empty. -/
def lamp : Description Unit :=
  [.event ⟨1⟩ "", .state ⟨2⟩ "on", .onEntry ⟨1⟩ (), .state ⟨1⟩ "off", .event ⟨1⟩ "switch",
    .state ⟨2⟩ "lit", .next ⟨1⟩ ⟨1⟩ none]

theorem lamp_registers : ∃ t : Table Unit Unit,
    (Blueprint.build ⟨"lamp", {}, none⟩ lamp).1 = .ok t ∧ t.stateLimit = 3 ∧
      t.stateName ⟨2⟩ = .ok "lit" ∧ t.stateName? ⟨2⟩ = some "lit" ∧ t.eventName? ⟨2⟩ = none := by
  obtain ⟨t, hbuild, k, -⟩ := Blueprint.build_ok (b := (⟨"lamp", {}, none⟩ : Blueprint Unit))
    (show lamp.check {} = .ok ⟨3, 2, 7⟩ by decide)
  have hbuilt := congrArg Prod.fst hbuild
  obtain ⟨hstates, hevents, -⟩ := Table.registers_exact hbuilt
  have hlimit : t.stateLimit = 3 := hstates.limit_eq
  obtain ⟨text, hslot, hname, hname?⟩ := hstates.within ⟨2⟩ (by rw [hlimit]; decide)
  obtain ⟨-, -, hnone⟩ := hevents.outside ⟨2⟩ (by rw [hevents.limit_eq]; decide)
  have htext : text = "lit" := by
    rw [k.stateNames_eq, hlimit] at hslot
    exact (Option.some.inj hslot).symm
  rw [htext] at hname hname?
  exact ⟨t, hbuilt, hlimit, hname, hname?, hnone⟩

end StateMachine

import StateMachine.Enumeration
import StateMachine.Proofs.Entries
import StateMachine.Proofs.NormalForm

namespace StateMachine
variable {η κ σ ρ : Type} {space : Space}

theorem Line.label?_label (n : Number space) (name : String) :
    (Line.label n name : Line η).label? space = some (n, name) := by
  cases space <;> rfl

theorem Line.label?_label_ne {other : Space} (h : other ≠ space) (n : Number space) (name : String) :
    (Line.label n name : Line η).label? other = none := by
  cases space <;> cases other <;> first | rfl | exact absurd rfl h

namespace Enumeration
variable {e : Enumeration space} {m : Member space} {n : Number space}

theorem eq_of_id {m' : Member space} (hm : m ∈ e.members) (hm' : m' ∈ e.members)
    (h : m.id = m'.id) : m = m' :=
  List.inj_on_of_nodup_map e.distinct hm hm' h

theorem of_ofNumber? (h : e.ofNumber? n = some m) : m ∈ e.members ∧ m.id = n := by
  have hid := List.find?_some h
  exact ⟨List.mem_of_find?_eq_some h, eq_of_beq hid⟩

theorem ofNumber?_eq_none (h : ∀ m ∈ e.members, m.id ≠ n) : e.ofNumber? n = none :=
  List.find?_eq_none.mpr fun m hm heq => h m hm (eq_of_beq heq)

theorem convert_eq_ok_iff : e.convert n = .ok m ↔ m ∈ e.members ∧ m.id = n := by
  rw [convert]
  cases hfound : e.ofNumber? n with
  | none =>
    refine ⟨nofun, fun h => ?_⟩
    exact absurd (beq_iff_eq.mpr h.2) (List.find?_eq_none.mp hfound m h.1)
  | some m' =>
    obtain ⟨hm', hid⟩ := of_ofNumber? hfound
    constructor
    · intro h
      obtain rfl := Except.ok.inj h
      exact ⟨hm', hid⟩
    · intro h
      rw [eq_of_id hm' h.1 (hid.trans h.2.symm)]

theorem convert_eq_error (h : ∀ m ∈ e.members, m.id ≠ n) : e.convert n = .error n := by
  rw [convert, ofNumber?_eq_none h]

/-- The numbers are those from 1 to the count of the members, in any order. -/
def Numbered (e : Enumeration space) : Prop :=
  (e.members.map (·.id.index)).Perm (List.range' 1 e.members.length)

theorem indices_nodup (e : Enumeration space) : (e.members.map (·.id.index)).Nodup := by
  have hdistinct := e.distinct
  rw [List.Nodup, List.pairwise_map] at hdistinct ⊢
  exact hdistinct.imp fun hne heq => hne (Number.index_inj.mp heq)

section
variable {top : Nat} (htop : ∀ i, top ≤ i ↔ ∀ m ∈ e.members, m.id.index ≤ i)
include htop

theorem Numbered.top_eq (h : e.Numbered) : top = e.members.length := by
  have hmem (i : Nat) : i ∈ e.members.map (·.id.index) ↔ 1 ≤ i ∧ i < 1 + e.members.length := by
    rw [h.mem_iff, List.mem_range'_1]
  have hle : top ≤ e.members.length := by
    rw [htop]
    intro m hm
    have := (hmem _).mp (List.mem_map_of_mem hm)
    omega
  have hge : e.members.length ≤ top := by
    by_cases h₀ : e.members.length = 0
    · omega
    · obtain ⟨m, hm, hlast⟩ := List.mem_map.mp ((hmem e.members.length).mpr (by omega))
      have := (htop top).mp (Nat.le_refl _) m hm
      omega
  omega

/-- Numbers without a gap, from 1 to the largest one, are as many as there are members. -/
theorem numbered_iff : e.Numbered ↔ (∀ m ∈ e.members, m.id.isReserved = false) ∧
    ∀ n : Number space, n.isReserved = false → n.index ≤ top → ∃ m ∈ e.members, m.id = n := by
  constructor
  · intro h
    rw [h.top_eq htop]
    constructor
    · intro m hm
      have hmem := h.mem_iff.mp (List.mem_map_of_mem hm)
      rw [List.mem_range'_1] at hmem
      exact Number.isReserved_of_pos (by omega)
    · intro n hn hle
      have hpos := Number.index_ne_zero hn
      have hmem := h.mem_iff.mpr (List.mem_range'_1.mpr ⟨Nat.pos_of_ne_zero hpos, by omega⟩)
      obtain ⟨m, hm, hindex⟩ := List.mem_map.mp hmem
      exact ⟨m, hm, Number.index_inj.mp hindex⟩
  · intro h
    obtain ⟨hunreserved, hdense⟩ := h
    have hperm : (e.members.map (·.id.index)).Perm (List.range' 1 top) := by
      refine (List.perm_ext_iff_of_nodup e.indices_nodup List.nodup_range').mpr fun i => ?_
      rw [List.mem_range'_1]
      constructor
      · intro hi
        obtain ⟨m, hm, rfl⟩ := List.mem_map.mp hi
        have hpos := Number.index_ne_zero (hunreserved m hm)
        have hle := (htop top).mp (Nat.le_refl _) m hm
        omega
      · intro hi
        have hle := (htop 65535).mpr fun m _ => Nat.le_of_lt_succ m.id.index_lt
        have hlt : i < 65536 := by omega
        have hindex : (Number.ofNat i : Number space).index = i := Number.index_ofNat hlt
        obtain ⟨m, hm, hid⟩ := hdense (.ofNat i) (Number.isReserved_ofNat (by omega) hlt) (by omega)
        exact List.mem_map.mpr ⟨m, hm, by rw [hid, hindex]⟩
    have hlength := hperm.length_eq
    rw [List.length_map, List.length_range'] at hlength
    rw [Numbered, hlength]
    exact hperm

end

end Enumeration

/-- The labels of a description are those of an enumeration. -/
def Description.Labels (ds : Description η) (e : Enumeration space) : Prop :=
  ds.active.filterMap (Line.label? space) = e.members.map fun m => (m.id, m.label)

namespace Description.Labels
variable {ds : Description η} {e : Enumeration space} {m : Member space} {n : Number space}
  {name : String}

/-- What is true of all labelled numbers is true of all members. -/
theorem forall_iff (k : ds.Labels e) {P : Number space → Prop} :
    (∀ d ∈ ds.active, ∀ n name, d.label? space = some (n, name) → P n) ↔
      ∀ m ∈ e.members, P m.id := by
  have hmem (n : Number space) (name : String) :
      (∃ d ∈ ds.active, d.label? space = some (n, name)) ↔
        ∃ m ∈ e.members, (m.id, m.label) = (n, name) := by
    rw [← List.mem_filterMap, k, List.mem_map]
  constructor
  · intro h m hm
    obtain ⟨d, hd, hlabel⟩ := (hmem m.id m.label).mpr ⟨m, hm, rfl⟩
    exact h d hd m.id m.label hlabel
  · intro h d hd n name hlabel
    obtain ⟨m, hm, heq⟩ := (hmem n name).mp ⟨d, hd, hlabel⟩
    obtain ⟨rfl, -⟩ := Prod.mk.inj heq
    exact h m hm

theorem label?_eq (k : ds.Labels e) (hm : m ∈ e.members) : ds.label? m.id = some m.label := by
  rw [label?, List.filterMap_reverse, k]
  refine findSome?_key (List.mem_reverse.mpr (List.mem_map.mpr ⟨m, hm, rfl⟩)) ?_
  intro name hname
  obtain ⟨m', hm', heq⟩ := List.mem_map.mp (List.mem_reverse.mp hname)
  obtain ⟨hid, rfl⟩ := Prod.mk.inj heq
  rw [Enumeration.eq_of_id hm' hm hid]

theorem exists_member (k : ds.Labels e) (h : ds.label? n = some name) :
    ∃ m ∈ e.members, m.id = n ∧ m.label = name := by
  rw [label?, List.filterMap_reverse, k] at h
  obtain ⟨x, hx, hfound⟩ := List.exists_of_findSome?_eq_some h
  obtain ⟨m, hm, rfl⟩ := List.mem_map.mp (List.mem_reverse.mp hx)
  obtain ⟨hid, hlabel⟩ := Option.ite_none_right_eq_some.mp hfound
  exact ⟨m, hm, hid, Option.some.inj hlabel⟩

/-- All numbers up to the largest are declared and named exactly where the members leave no gap and
have labels. -/
theorem named_iff (k : ds.Labels e) {top : Nat}
    (htop : ∀ i, top ≤ i ↔ ∀ m ∈ e.members, m.id.index ≤ i) :
    ((∀ m ∈ e.members, m.id.isReserved = false) ∧ ∀ n : Number space, n.isReserved = false →
        n.index ≤ top → (ds.label? n).getD "" ≠ "") ↔
      e.Numbered ∧ ∀ m ∈ e.members, m.label ≠ "" := by
  rw [Enumeration.numbered_iff htop]
  constructor
  · intro h
    obtain ⟨hunreserved, hnamed⟩ := h
    refine ⟨⟨hunreserved, fun n hn hle => ?_⟩, fun m hm => ?_⟩
    · cases hlabel : ds.label? n with
      | none => exact absurd (congrArg (·.getD "") hlabel) (hnamed n hn hle)
      | some name =>
        obtain ⟨m, hm, hid, -⟩ := k.exists_member hlabel
        exact ⟨m, hm, hid⟩
    · have hne := hnamed m.id (hunreserved m hm) ((htop top).mp (Nat.le_refl _) m hm)
      rwa [k.label?_eq hm] at hne
  · intro h
    obtain ⟨⟨hunreserved, hdense⟩, hlabels⟩ := h
    refine ⟨hunreserved, fun n hn hle => ?_⟩
    obtain ⟨m, hm, rfl⟩ := hdense n hn hle
    rw [k.label?_eq hm]
    exact hlabels m hm

end Description.Labels

theorem Enumeration.filterMap_labels (e : Enumeration space) :
    (e.labels : Description η).filterMap (Line.label? space) =
      e.members.map fun m => (m.id, m.label) := by
  rw [Enumeration.labels, List.filterMap_map, ← List.filterMap_eq_map]
  exact List.filterMap_congr fun m _ => Line.label?_label m.id m.label

theorem Enumeration.filterMap_labels_ne (e : Enumeration space) {other : Space}
    (h : other ≠ space) : (e.labels : Description η).filterMap (Line.label? other) = [] := by
  apply List.filterMap_eq_nil_iff.mpr
  intro d hd
  obtain ⟨m, -, rfl⟩ := List.mem_map.mp hd
  exact Line.label?_label_ne h m.id m.label

/-- A line that selects a member or declares a transition between members. -/
def Line.Over (events : Enumeration .event) (states : Enumeration .state) : Line η → Prop
  | .source s => ∃ m ∈ states.members, m.id = s
  | .next e target _ => (∃ m ∈ events.members, m.id = e) ∧ ∃ m ∈ states.members, m.id = target
  | _ => False

namespace Enumeration
variable {events : Enumeration .event} {states : Enumeration .state} {more : Description η}
  {d : Line η}

/-- All lines of a description of two enumerations. -/
theorem mem_lines (hmore : ∀ d ∈ more, d.Over events states)
    (hd : d ∈ events.labels ++ states.labels ++ more) :
    (∃ m ∈ events.members, d = .event m.id m.label) ∨
      (∃ m ∈ states.members, d = .state m.id m.label) ∨ d ∈ more ∧ d.Over events states := by
  rcases List.mem_append.mp hd with hd | hd
  · rcases List.mem_append.mp hd with hd | hd
    · obtain ⟨m, hm, rfl⟩ := List.mem_map.mp hd
      exact .inl ⟨m, hm, rfl⟩
    · obtain ⟨m, hm, rfl⟩ := List.mem_map.mp hd
      exact .inr (.inl ⟨m, hm, rfl⟩)
  · exact .inr (.inr ⟨hd, hmore d hd⟩)

theorem unstopped (hmore : ∀ d ∈ more, d.Over events states) :
    (events.labels ++ states.labels ++ more).Unstopped := by
  intro d hd
  rcases mem_lines hmore hd with ⟨m, -, rfl⟩ | ⟨m, -, rfl⟩ | ⟨-, hover⟩
  · rfl
  · rfl
  · cases d with
    | source | next => rfl
    | _ => exact hover.elim

theorem filterMap_over (hmore : ∀ d ∈ more, d.Over events states) (space : Space) :
    more.filterMap (Line.label? space) = [] := by
  apply List.filterMap_eq_nil_iff.mpr
  intro d hd
  have hover := hmore d hd
  cases d with
  | source | next => cases space <;> rfl
  | _ => exact hover.elim

theorem labels_events (hmore : ∀ d ∈ more, d.Over events states) :
    (events.labels ++ states.labels ++ more).Labels events := by
  rw [Description.Labels, (unstopped hmore).active_eq, List.filterMap_append, List.filterMap_append,
    filterMap_over hmore, filterMap_labels, filterMap_labels_ne states Space.noConfusion,
    List.append_nil, List.append_nil]

theorem labels_states (hmore : ∀ d ∈ more, d.Over events states) :
    (events.labels ++ states.labels ++ more).Labels states := by
  rw [Description.Labels, (unstopped hmore).active_eq, List.filterMap_append, List.filterMap_append,
    filterMap_over hmore, filterMap_labels, filterMap_labels_ne events Space.noConfusion,
    List.append_nil, List.nil_append]

/-- What is true of all states that the labels select is true of all members. -/
theorem forall_selected_iff {P : StateId → Prop} :
    (∀ d ∈ Description.active (events.labels ++ states.labels : Description η), ∀ s,
      d.selected? = some s → P s) ↔ ∀ m ∈ states.members, P m.id := by
  have hunstopped : (events.labels ++ states.labels ++ [] : Description η).Unstopped :=
    unstopped (List.forall_mem_nil _)
  rw [List.append_nil] at hunstopped
  rw [hunstopped.active_eq]
  constructor
  · intro h m hm
    exact h (.state m.id m.label) (List.mem_append_right _ (List.mem_map.mpr ⟨m, hm, rfl⟩)) _ rfl
  · intro h d hd s hs
    rcases List.mem_append.mp hd with hd | hd
    · obtain ⟨m, hm, rfl⟩ := List.mem_map.mp hd
      cases hs
    · obtain ⟨m, hm, rfl⟩ := List.mem_map.mp hd
      obtain rfl := Option.some.inj hs
      exact h m hm

theorem rules_labels : (events.labels ++ states.labels : Description η).rules = [] := by
  apply List.eq_nil_iff_forall_not_mem.mpr
  intro r hr
  have hline := List.mem_of_getElem? (Description.mem_rules_iff.mp hr)
  rcases List.mem_append.mp ((List.takeWhile_sublist _).subset hline) with hline | hline
  · obtain ⟨m, -, hm⟩ := List.mem_map.mp hline
    cases hm
  · obtain ⟨m, -, hm⟩ := List.mem_map.mp hline
    cases hm

/-- The labels of two enumerations keep all rules exactly where the numbers of both start at 1 and have no
gap, every label says something, and the cells fit. -/
theorem lawful_iff {settings : Settings} :
    (events.labels ++ states.labels : Description η).Lawful settings ↔
      (events.Numbered ∧ ∀ m ∈ events.members, m.label ≠ "") ∧
      (states.Numbered ∧ ∀ m ∈ states.members, m.label ≠ "") ∧
      (states.members.length + 1) * (events.members.length + 1) ≤ settings.width.capacity := by
  have kevents : (events.labels ++ states.labels ++ [] : Description η).Labels events :=
    labels_events (List.forall_mem_nil _)
  have kstates : (events.labels ++ states.labels ++ [] : Description η).Labels states :=
    labels_states (List.forall_mem_nil _)
  rw [List.append_nil] at kevents kstates
  have htopEvent (i : Nat) : Description.topEvent (events.labels ++ states.labels : Description η) ≤ i ↔
      ∀ m ∈ events.members, m.id.index ≤ i :=
    Description.topEvent_le_iff.trans (kevents.forall_iff (P := (·.index ≤ i)))
  have htopState (i : Nat) : Description.topState (events.labels ++ states.labels : Description η) ≤ i ↔
      ∀ m ∈ states.members, m.id.index ≤ i :=
    Description.topState_le_iff.trans (forall_selected_iff (P := (·.index ≤ i)))
  constructor
  · intro h
    have hevents := (kevents.named_iff htopEvent).mp ⟨kevents.forall_iff.mp h.labelled, h.events⟩
    have hstates := (kstates.named_iff htopState).mp ⟨forall_selected_iff.mp h.selected, h.states⟩
    refine ⟨hevents, hstates, ?_⟩
    rw [← hevents.1.top_eq htopEvent, ← hstates.1.top_eq htopState]
    exact h.cells
  · intro h
    obtain ⟨hevents, hstates, hcells⟩ := h
    rw [← hevents.1.top_eq htopEvent, ← hstates.1.top_eq htopState] at hcells
    obtain ⟨hlabelled, hnames⟩ := (kevents.named_iff htopEvent).mpr hevents
    obtain ⟨hselected, hnames'⟩ := (kstates.named_iff htopState).mpr hstates
    have hrules (P : Rule η → Prop) :
        ∀ r ∈ (events.labels ++ states.labels : Description η).rules, P r := by
      rw [rules_labels]
      exact List.forall_mem_nil P
    refine ⟨forall_selected_iff.mpr hselected, kevents.forall_iff.mpr hlabelled, hrules _, hrules _,
      hrules _, hcells, hrules _, hnames', hnames, fun _ => ?_⟩
    rw [Description.repeatViolations, rules_labels]
    rfl

end Enumeration

theorem Calls.forall_transcript {calls : Calls σ ρ} {Q : Response σ ρ → Prop} {turns : List Turn}
    (hturns : ∀ turn ∈ turns, ∀ holdings : Holdings σ, Q (calls.respond holdings turn))
    (holdings : Holdings σ) : ∀ response ∈ calls.transcript holdings turns, Q response := by
  induction turns generalizing holdings with
  | nil => exact List.forall_mem_nil _
  | cons turn rest ih =>
    obtain ⟨hturn, hrest⟩ := List.forall_mem_cons.mp hturns
    exact List.forall_mem_cons.mpr ⟨hturn holdings, ih hrest _⟩

/-- No handler begins in the record. -/
def Unhandled (record : List (Occurrence σ ρ)) : Prop := ∀ role s e c, .began role s e c ∉ record

namespace Table
variable {t : Table (Handler σ ρ) (Logger σ ρ)} {ds : Description (Handler σ ρ)} {calls : Calls σ ρ}
  {P : StateId → Prop} {s target : StateId} {e : EventId} {c : σ}

theorem told_unhandled : Unhandled (t.told s target e c) := by
  intro role s' e' c' h
  unfold told at h
  cases hlogger : t.logger with
  | none =>
    rw [hlogger] at h
    cases h
  | some logger =>
    rw [hlogger] at h
    rcases List.mem_cons.mp h with h | h
    · cases h
    · obtain ⟨note, -, h⟩ := List.mem_map.mp h
      cases h

theorem moved_unhandled : Unhandled (t.moved s target e c) := by
  intro role s' e' c' h
  rcases List.mem_append.mp h with h | h
  · exact told_unhandled role s' e' c' h
  · simp at h

/-- A table without handlers begins none. -/
theorem Ready.stepWith_unhandled (k : t.Ready ds) (hplain : ∀ d ∈ ds.active, d.handler? = none) :
    Unhandled (t.stepWith calls e s c).account.record := by
  cases hhead : (t.breaches s (.step e)).head? with
  | some fault =>
    rw [stepWith_breach hhead]
    exact fun _ _ _ _ => List.not_mem_nil
  | none =>
    have hclear := List.head?_eq_none_iff.mp hhead
    rw [k.stepWith_plain hplain hclear]
    cases hr : ds.rule? s e with
    | none => exact fun _ _ _ _ h => nomatch List.mem_singleton.mp h
    | some r =>
      obtain ⟨hs, he⟩ := breaches_step_eq_nil.mp hclear
      have htarget := (k.target r (Description.declares_of_rule? hr).1).2
      dsimp only
      rw [k.enterWith_plain hplain (breaches_enter_eq_nil.mpr ⟨hs, htarget, he⟩)]
      cases t.logFailure? s r.target e c with
      | some message => exact told_unhandled
      | none =>
        dsimp only
        rw [Account.andThen_ok, Account.after_mk, List.append_nil]
        exact moved_unhandled

/-- A step in which no handler begins stays where it is or goes where a transition leads. -/
theorem Ready.stepWith_stays_unhandled (k : t.Ready ds) (hentry : ∀ s, ds.entryHandler? s = none)
    (hrules : ∀ r ∈ ds.rules, P r.target) (hs : P s)
    (hfree : Unhandled (t.stepWith calls e s c).account.record) :
    (t.stepWith calls e s c).account.Stays P s := by
  cases hhead : (t.breaches s (.step e)).head? with
  | some fault =>
    rw [stepWith_breach hhead]
    exact .here hs
  | none =>
    have hclear := List.head?_eq_none_iff.mp hhead
    rcases k.cell_cases hclear with hcell | ⟨⟨i, e', target, override⟩, hr, hcell, hat⟩
    · rw [k.stepWith_ignored hclear hcell]
      exact .stay hs trivial rfl
    · have hmem := (Description.declares_of_rule? hr).1
      cases override with
      | some handler =>
        rw [stepWith_override hcell hat, invoke_enclose] at hfree
        obtain ⟨later, hlater⟩ := Account.record_andThen
          (((handler t.view e).exec calls s c).account.enclose .override s e c)
          fun _ s c => ⟨.ok Outcome.handled, s, c, []⟩
        obtain ⟨last, hlast⟩ := Account.record_enclose ((handler t.view e).exec calls s c).account
          .override s e c
        rw [hlater, hlast] at hfree
        exact absurd List.mem_cons_self (hfree .override s e c)
      | none =>
        obtain ⟨hs', he⟩ := breaches_step_eq_nil.mp hclear
        have htarget := (k.target _ hmem).2
        rw [stepWith_transition hcell hat]
        refine Account.Stays.andThen ?_ fun _ s c hs => .here hs
        rw [k.enterWith_clear (breaches_enter_eq_nil.mpr ⟨hs', htarget, he⟩)]
        cases t.logFailure? s target e c with
        | some message => exact told_traces hs target e c
        | none =>
          have hnone : t.entryHandler? target = none := (k.entryHandler?_eq htarget).trans (hentry target)
          dsimp only
          rw [arrive_none hnone]
          exact .after (moved_traces hs (hrules _ hmem) e c) (.here (hrules _ hmem))

end Table

namespace Enumeration
variable {events : Enumeration .event} {states : Enumeration .state} {more ds : Description η}
  {b : Blueprint κ} {t : Table η κ}

/-- Lines over two enumerations have no entry handlers, and their transitions lead to members. -/
theorem entryHandler?_lines (hmore : ∀ d ∈ more, d.Over events states) (s : StateId) :
    (events.labels ++ states.labels ++ more).entryHandler? s = none := by
  cases hs : (events.labels ++ states.labels ++ more).entryHandler? s with
  | none => rfl
  | some handler =>
    have hline := Description.onEntry_of_entryHandler? hs
    rw [(unstopped hmore).active_eq] at hline
    rcases mem_lines hmore hline with ⟨m, -, h⟩ | ⟨m, -, h⟩ | ⟨-, hover⟩
    · cases h
    · cases h
    · exact hover.elim

theorem target_lines (hmore : ∀ d ∈ more, d.Over events states) :
    ∀ r ∈ (events.labels ++ states.labels ++ more).rules, ∃ m ∈ states.members, m.id = r.target := by
  intro r hr
  have hline := List.mem_of_getElem? (Description.mem_rules_iff.mp hr)
  rw [(unstopped hmore).active_eq] at hline
  rcases mem_lines hmore hline with ⟨m, -, h⟩ | ⟨m, -, h⟩ | ⟨-, hover⟩
  · cases h
  · cases h
  · exact hover.2

theorem plain_lines (hmore : ∀ d ∈ more, d.Over events states)
    (hplain : ∀ d ∈ more, d.handler? = none) :
    ∀ d ∈ (events.labels ++ states.labels ++ more).active, d.handler? = none := by
  rw [(unstopped hmore).active_eq]
  intro d hd
  rcases mem_lines hmore hd with ⟨m, -, rfl⟩ | ⟨m, -, rfl⟩ | ⟨hd, -⟩
  · rfl
  · rfl
  · exact hplain d hd

end Enumeration

/-- No label of a lawful description is for number 0. -/
theorem Description.Lawful.unreserved_label {ds : Description η} {settings : Settings}
    (h : ds.Lawful settings) {d : Line η} (hd : d ∈ ds.active) {n : Number space} {name : String}
    (hn : d.label? space = some (n, name)) : n.isReserved = false := by
  cases space with
  | event => exact h.labelled d hd n name hn
  | state =>
    cases d with
    | state s name' =>
      obtain ⟨rfl, -⟩ := Prod.mk.inj (Option.some.inj hn)
      exact h.selected _ hd _ rfl
    | _ => cases hn

/-- Members of the labels of a lawful description are in range, and are named by their labels. -/
theorem Description.Labels.nameOf_eq {ds : Description η} {e : Enumeration space} (k : ds.Labels e)
    {settings : Settings} (h : ds.Lawful settings) {m : Member space} (hm : m ∈ e.members) :
    m.id.index ≤ ds.top space ∧ ds.nameOf m.id = m.label := by
  have hunreserved := k.forall_iff.mp (fun d hd n name hn => h.unreserved_label hd hn) m hm
  have hle := k.forall_iff (P := (·.index ≤ ds.top space)).mp
    (fun d hd n name hn => Description.index_le_top hd hn) m hm
  refine ⟨hle, ?_⟩
  rw [Description.nameOf, hunreserved, k.label?_eq hm]
  rfl

namespace Enumeration

/-- Converting a number finds the member that has it, and else returns the number. -/
def Converts (e : Enumeration space) : Prop :=
  (∀ m ∈ e.members, e.convert m.id = .ok m) ∧
    ∀ n, (∀ m ∈ e.members, m.id ≠ n) → e.convert n = .error n

theorem converts (e : Enumeration space) : e.Converts :=
  ⟨fun _ hm => convert_eq_ok_iff.mpr ⟨hm, rfl⟩, fun _ h => convert_eq_error h⟩

end Enumeration

def tide : Enumeration .event where
  members := [⟨"Rise", ⟨1⟩, "rise"⟩]

def moon : Enumeration .state where
  members := [⟨"Full", ⟨2⟩, "full"⟩, ⟨"New", ⟨1⟩, "new"⟩]

namespace Blueprint
variable {events : Enumeration .event} {states : Enumeration .state} {more : Description η}
  {b : Blueprint κ} {t : Table η κ}

theorem labels_accepted_iff (b : Blueprint κ) :
    (∃ t, (b.build (events.labels ++ states.labels : Description η)).1 = .ok t) ↔
      (events.Numbered ∧ ∀ m ∈ events.members, m.label ≠ "") ∧
      (states.Numbered ∧ ∀ m ∈ states.members, m.label ≠ "") ∧
      (states.members.length + 1) * (events.members.length + 1) ≤ b.settings.width.capacity := by
  rw [← Enumeration.lawful_iff (η := η)]
  constructor
  · intro h
    obtain ⟨t, hbuilt⟩ := h
    exact (represents_of_build hbuilt).1
  · intro h
    obtain ⟨t, hbuild, -⟩ := build_ok (Description.check_eq_ok_iff.mpr ⟨h, rfl⟩)
    exact ⟨t, congrArg Prod.fst hbuild⟩

section
variable (h : (b.build (events.labels ++ states.labels ++ more)).1 = .ok t)
  (hmore : ∀ d ∈ more, d.Over events states) (f : η → Handler σ ρ) (logger : Option (Logger σ ρ))
  (depth : Nat) {holdings : Holdings σ} {machine : Nat} {turns : List Turn}
include h hmore

/-- Without handlers in the lines none begins in a session of steps. -/
theorem session_unhandled (hplain : ∀ d ∈ more, d.handler? = none)
    (hturns : ∀ turn ∈ turns, ∃ e, turn.request = .step e) :
    ∀ response ∈ ((t.equip f logger).calls (depth + 1)).transcript holdings turns,
      Unhandled response.record := by
  have k := ready_of_build h f logger
  refine Calls.forall_transcript (fun turn hturn holdings => ?_) holdings
  obtain ⟨e, he⟩ := hturns turn hturn
  rw [Calls.respond_eq, he, Calls.account_step]
  exact k.stepWith_unhandled (Description.plain_map f (Enumeration.plain_lines hmore hplain))

/-- A machine that is stepped from a member stays within the members while no handler begins. -/
theorem members_confined (hstart : ∃ m ∈ states.members, m.id = holdings.machines machine)
    (hturns : ∀ turn ∈ turns, turn.machine = machine ∧ ∃ e, turn.request = .step e)
    (hfree : ∀ response ∈ ((t.equip f logger).calls (depth + 1)).transcript holdings turns,
      Unhandled response.record) :
    Remains (fun s => ∃ m, states.convert s = .ok m) machine holdings
      (((t.equip f logger).calls (depth + 1)).transcript holdings turns) := by
  have k := ready_of_build h f logger
  have hentry (s : StateId) : Description.entryHandler?
      (List.map (Line.map f) (events.labels ++ states.labels ++ more)) s = none := by
    rw [Description.entryHandler?_map, Enumeration.entryHandler?_lines hmore]
    rfl
  have hrules : ∀ r ∈ Description.rules
      (List.map (Line.map f) (events.labels ++ states.labels ++ more)),
      ∃ m, states.convert r.target = .ok m := by
    rw [Description.rules_map]
    intro r hr
    obtain ⟨r', hr', rfl⟩ := List.mem_map.mp hr
    obtain ⟨m, hm⟩ := Enumeration.target_lines hmore r' hr'
    exact ⟨m, Enumeration.convert_eq_ok_iff.mpr hm⟩
  obtain ⟨m, hm⟩ := hstart
  refine (Calls.transcript_remains_while (Q := fun _ => True) (fun turn hturn holdings hs => ?_)
    hfree ⟨m, Enumeration.convert_eq_ok_iff.mpr hm⟩).1
  obtain ⟨rfl, e, he⟩ := hturns turn hturn
  rw [Calls.respond_eq, he, Calls.account_step, Table.calls]
  intro response hresponse
  refine ⟨?_, trivial⟩
  have hstays := k.stepWith_stays_unhandled (P := fun s => ∃ m, states.convert s = .ok m) hentry
    hrules hs hresponse
  simpa [response, Holdings.put, Account.Stays] using hstays

end

/-- Enumerations and their table agree. The labels of events and states are accepted exactly where the
numbers of both enumerations start at 1 and have no gap, no label is empty, and the cells fit. From a
number back to its member the conversion is exact, whether the labels are accepted or not. Where they
are accepted, with or without further lines over the members, every member has its label for a name,
and a machine that is stepped from a member stays within the members, at every moment and after
every call, for as long as no handler begins; without handlers in the lines none ever does. -/
theorem enumerations_agree (events : Enumeration .event) (states : Enumeration .state)
    (b : Blueprint κ) :
    ((∃ t, (b.build (events.labels ++ states.labels : Description η)).1 = .ok t) ↔
      (events.Numbered ∧ ∀ m ∈ events.members, m.label ≠ "") ∧
      (states.Numbered ∧ ∀ m ∈ states.members, m.label ≠ "") ∧
      (states.members.length + 1) * (events.members.length + 1) ≤ b.settings.width.capacity) ∧
    events.Converts ∧ states.Converts ∧
    ∀ more : Description η, (∀ d ∈ more, d.Over events states) →
      ∀ t, (b.build (events.labels ++ states.labels ++ more)).1 = .ok t →
      (∀ m ∈ events.members, t.eventName m.id = .ok m.label) ∧
      (∀ m ∈ states.members, t.stateName m.id = .ok m.label) ∧
      ∀ (f : η → Handler σ ρ) (logger : Option (Logger σ ρ)) (depth : Nat) (holdings : Holdings σ)
        (machine : Nat) (turns : List Turn),
        (∃ m ∈ states.members, m.id = holdings.machines machine) →
        (∀ turn ∈ turns, turn.machine = machine ∧ ∃ e, turn.request = .step e) →
        let responses := ((t.equip f logger).calls (depth + 1)).transcript holdings turns
        ((∀ d ∈ more, d.handler? = none) → ∀ response ∈ responses, Unhandled response.record) ∧
          ((∀ response ∈ responses, Unhandled response.record) →
            Remains (fun s => ∃ m, states.convert s = .ok m) machine holdings responses) := by
  refine ⟨labels_accepted_iff b, events.converts, states.converts, ?_⟩
  intro more hmore t hbuilt
  obtain ⟨hlawful, k, -, -⟩ := represents_of_build hbuilt
  refine ⟨?_, ?_, ?_⟩
  · intro m hm
    obtain ⟨hle, hname⟩ := (Enumeration.labels_events hmore).nameOf_eq hlawful hm
    have hlt : m.id.index < t.eventLimit := by
      rw [k.eventLimit]
      exact Nat.lt_succ_of_le hle
    rw [k.eventName_eq hlt, hname]
  · intro m hm
    obtain ⟨hle, hname⟩ := (Enumeration.labels_states hmore).nameOf_eq hlawful hm
    have hlt : m.id.index < t.stateLimit := by
      rw [k.stateLimit]
      exact Nat.lt_succ_of_le hle
    rw [k.stateName_eq hlt, hname]
  · intro f logger depth holdings machine turns hstart hturns
    exact ⟨fun hplain => session_unhandled hbuilt hmore f logger depth hplain
        fun turn hturn => (hturns turn hturn).2,
      members_confined hbuilt hmore f logger depth hstart hturns⟩

/-- The moon is declared out of order, and waxes only. -/
theorem moon_agrees : ∃ t : Table Unit Unit,
    (build ⟨"moon", {}, none⟩
      (tide.labels ++ moon.labels ++ [.source ⟨1⟩, .next ⟨1⟩ ⟨2⟩ none])).1 = .ok t ∧
      t.stateName ⟨2⟩ = .ok "full" ∧ t.eventName ⟨1⟩ = .ok "rise" ∧
      Remains (fun s => ∃ m, moon.convert s = .ok m) 0 ⟨fun _ => ⟨1⟩, fun _ => ()⟩
        (((t.equip (fun _ => Table.jumpTo ⟨0⟩) (none : Option (Logger Unit Unit))).calls 1).transcript
          ⟨fun _ => ⟨1⟩, fun _ => ()⟩ [⟨0, 0, .step ⟨1⟩⟩, ⟨0, 0, .step ⟨9⟩⟩]) := by
  have hcheck : Description.check (η := Unit)
      (tide.labels ++ moon.labels ++ [.source ⟨1⟩, .next ⟨1⟩ ⟨2⟩ none]) {} = .ok ⟨3, 2, 5⟩ := by
    decide
  obtain ⟨t, hbuild, -⟩ := build_ok (κ := Unit)
    (b := (⟨"moon", {}, none⟩ : Blueprint Unit)) hcheck
  have hbuilt := congrArg Prod.fst hbuild
  obtain ⟨-, -, -, hlines⟩ := enumerations_agree (η := Unit) (κ := Unit) (σ := Unit) (ρ := Unit)
    tide moon ⟨"moon", {}, none⟩
  have hmore : ∀ d ∈ ([.source ⟨1⟩, .next ⟨1⟩ ⟨2⟩ none] : Description Unit), d.Over tide moon := by
    simp [Line.Over, tide, moon]
  obtain ⟨hevents, hstates, hruns⟩ := hlines _ hmore t hbuilt
  have hnew : (⟨"New", ⟨1⟩, "new"⟩ : Member .state) ∈ moon.members := by simp [moon]
  have hfull := hstates ⟨"Full", ⟨2⟩, "full"⟩ (by simp [moon])
  have hrise := hevents ⟨"Rise", ⟨1⟩, "rise"⟩ (by simp [tide])
  obtain ⟨hunhandled, hremains⟩ := hruns (fun _ => Table.jumpTo ⟨0⟩) none 0
    ⟨fun _ => ⟨1⟩, fun _ => ()⟩ 0 [⟨0, 0, .step ⟨1⟩⟩, ⟨0, 0, .step ⟨9⟩⟩] ⟨_, hnew, rfl⟩ (by simp)
  exact ⟨t, hbuilt, hfull, hrise, hremains (hunhandled (by decide))⟩

end Blueprint
end StateMachine

import StateMachine.Proofs.Bindings

namespace StateMachine

section
variable {space : Space} {names : List String} {n : Number space} {name : String}

theorem mem_numbers {count : Nat} (h : count < 65536) :
    n ∈ (List.range' 1 count).map Number.ofNat ↔ n.isReserved = false ∧ n.index ≤ count := by
  rw [List.mem_map]
  constructor
  · intro hmem
    obtain ⟨i, hi, rfl⟩ := hmem
    rw [List.mem_range'_1] at hi
    rw [Number.index_ofNat (by omega)]
    exact ⟨Number.isReserved_ofNat (by omega) (by omega), by omega⟩
  · intro hrange
    obtain ⟨hn, hle⟩ := hrange
    have hpos := Number.index_ne_zero hn
    exact ⟨n.index, by rw [List.mem_range'_1]; omega, n.ofNat_index⟩

theorem numbers_nodup {count : Nat} (h : count < 65536) :
    ((List.range' 1 count).map (Number.ofNat : Nat → Number space)).Nodup := by
  refine List.Nodup.map_on ?_ List.nodup_range'
  intro i hi j hj hij
  rw [List.mem_range'_1] at hi hj
  have hindex := congrArg Number.index hij
  rwa [Number.index_ofNat (by omega), Number.index_ofNat (by omega)] at hindex

theorem map_fst_numbered :
    (numbered names).map Prod.fst =
      (List.range' 1 names.length).map (Number.ofNat : Nat → Number space) := by
  rw [numbered, List.map_map, ← List.zipIdx_map_snd 1 names, List.map_map]
  rfl

/-- Every number up to the count of the names has a name. -/
theorem mem_numbers_iff_numbered :
    n ∈ (List.range' 1 names.length).map Number.ofNat ↔ ∃ name, (n, name) ∈ numbered names := by
  rw [← map_fst_numbered]
  simp

theorem mem_numbered (h : names.length < 65536) :
    (n, name) ∈ numbered names ↔ n.isReserved = false ∧ names[n.index - 1]? = some name := by
  rw [numbered, List.mem_map]
  constructor
  · intro hmem
    obtain ⟨⟨name', i⟩, hi, heq⟩ := hmem
    obtain ⟨hle, hget⟩ := List.mk_mem_zipIdx_iff_le_and_getElem?_sub.mp hi
    obtain ⟨hlt, -⟩ := List.getElem?_eq_some_iff.mp hget
    obtain ⟨rfl, rfl⟩ := Prod.mk.inj heq
    rw [Number.index_ofNat (by omega)]
    exact ⟨Number.isReserved_ofNat (by omega) (by omega), hget⟩
  · intro hnamed
    obtain ⟨hn, hget⟩ := hnamed
    have hpos := Number.index_ne_zero hn
    refine ⟨(name, n.index), List.mk_mem_zipIdx_iff_le_and_getElem?_sub.mpr ⟨by omega, hget⟩, ?_⟩
    exact Prod.ext n.ofNat_index rfl

end

/-- A search by key finds what is listed for the key, if that is listed only once. -/
theorem findSome?_key {α β : Type} [DecidableEq α] {xs : List (α × β)} {a : α} {b : β}
    (hmem : (a, b) ∈ xs) (honce : ∀ b', (a, b') ∈ xs → b' = b) :
    (xs.findSome? fun x => if x.1 = a then some x.2 else none) = some b := by
  have hsome : (xs.findSome? fun x => if x.1 = a then some x.2 else none).isSome = true :=
    List.findSome?_isSome_iff.mpr ⟨_, hmem, by simp⟩
  obtain ⟨b', hb'⟩ := Option.isSome_iff_exists.mp hsome
  obtain ⟨x, hx, hfound⟩ := List.exists_of_findSome?_eq_some hb'
  obtain ⟨rfl, hx'⟩ := Option.ite_none_right_eq_some.mp hfound
  obtain rfl := Option.some.inj hx'
  rw [hb', honce x.2 hx]

namespace Description
variable {η : Type} {ds : Description η}

/-- Labels that number names in order give every number its name. -/
theorem label?_of_numbered {space : Space} {names : List String}
    (h : ds.active.filterMap (Line.label? space) = numbered names) (hlen : names.length < 65536)
    {n : Number space} (hn : n.isReserved = false) : ds.label? n = names[n.index - 1]? := by
  have hlabels : (ds.active.reverse.filterMap (Line.label? space)) = (numbered names).reverse := by
    rw [List.filterMap_reverse, h]
  rw [label?, hlabels]
  cases hget : names[n.index - 1]? with
  | none =>
    apply List.findSome?_eq_none_iff.mpr
    intro label hlabel
    apply if_neg
    intro heq
    subst heq
    rw [List.mem_reverse, mem_numbered hlen] at hlabel
    rw [hget] at hlabel
    cases hlabel.2
  | some name =>
    refine findSome?_key (List.mem_reverse.mpr ((mem_numbered hlen).mpr ⟨hn, hget⟩)) ?_
    intro name' hname'
    rw [List.mem_reverse, mem_numbered hlen, hget] at hname'
    exact (Option.some.inj hname'.2).symm

end Description

namespace Chart
variable {η : Type} {c : Chart} {s : StateId} {e : EventId} {target : StateId}

/-- The numbers of a chart are numbers that there are. -/
structure Small (c : Chart) : Prop where
  states : c.states.length < 65536
  events : c.events.length < 65536

theorem Small.mem_stateIds (h : c.Small) :
    s ∈ c.stateIds ↔ s.isReserved = false ∧ s.index ≤ c.states.length := mem_numbers h.states

theorem Small.mem_eventIds (h : c.Small) :
    e ∈ c.eventIds ↔ e.isReserved = false ∧ e.index ≤ c.events.length := mem_numbers h.events

theorem mem_row : (e, target) ∈ c.row s ↔ e ∈ c.eventIds ∧ c.target? s e = some target := by
  simp [row]

theorem mem_arrows :
    (s, e, target) ∈ c.arrows ↔ s ∈ c.stateIds ∧ e ∈ c.eventIds ∧ c.target? s e = some target := by
  simp [arrows, mem_row]

theorem mem_description {d : Line η} (h : d ∈ c.description) :
    (∃ e name, (e, name) ∈ numbered c.events ∧ d = .event e name) ∨
      (∃ s name, (s, name) ∈ numbered c.states ∧ d = .state s name) ∨
      ∃ e target, d = .next e target none := by
  rcases List.mem_append.mp h with h | h
  · obtain ⟨⟨e, name⟩, he, rfl⟩ := List.mem_map.mp h
    exact .inl ⟨e, name, he, rfl⟩
  · obtain ⟨⟨s, name⟩, hs, hd⟩ := List.mem_flatMap.mp h
    rcases List.mem_cons.mp hd with rfl | hd
    · exact .inr (.inl ⟨s, name, hs, rfl⟩)
    · obtain ⟨⟨e, target⟩, -, rfl⟩ := List.mem_map.mp hd
      exact .inr (.inr ⟨e, target, rfl⟩)

theorem description_unstopped (c : Chart) : Description.Unstopped (c.description : Description η) := by
  intro d hd
  rcases mem_description hd with ⟨e, name, -, rfl⟩ | ⟨s, name, -, rfl⟩ | ⟨e, target, rfl⟩ <;> rfl

theorem handler?_description {d : Line η} (h : d ∈ c.description) : d.handler? = none := by
  rcases mem_description h with ⟨e, name, -, rfl⟩ | ⟨s, name, -, rfl⟩ | ⟨e, target, rfl⟩ <;> rfl

theorem filterMap_moves (row : List (EventId × StateId)) (space : Space) :
    (Description.moves row : Description η).filterMap (Line.label? space) = [] := by
  apply List.filterMap_eq_nil_iff.mpr
  intro d hd
  obtain ⟨⟨e, target⟩, -, rfl⟩ := List.mem_map.mp hd
  cases space <;> rfl

theorem filterMap_block (s : StateId) (name : String) (row : List (EventId × StateId)) :
    (Description.block s name row : Description η).filterMap (Line.label? .state) = [(s, name)] ∧
      (Description.block s name row : Description η).filterMap (Line.label? .event) = [] :=
  ⟨congrArg _ (filterMap_moves row .state), filterMap_moves row .event⟩

/-- Nothing is labelled but what the chart names, and each number once. -/
theorem filterMap_description (c : Chart) (space : Space) :
    (c.description : Description η).filterMap (Line.label? space) = numbered (c.names space) := by
  rw [description, eventLabels, List.filterMap_append, List.filterMap_map, List.filterMap_flatMap]
  cases space with
  | state =>
    simp only [filterMap_block]
    simp [Line.label?, names]
  | event =>
    simp only [filterMap_block]
    simp [Line.label?, names]

theorem Small.names (h : c.Small) : ∀ space, (c.names space).length < 65536
  | .state => h.states
  | .event => h.events

/-- In its description every number of a chart has its own name, and no other number has any. -/
theorem Small.label?_description (h : c.Small) {space : Space} {n : Number space}
    (hn : n.isReserved = false) :
    (c.description : Description η).label? n = (c.names space)[n.index - 1]? := by
  refine Description.label?_of_numbered ?_ (h.names space) hn
  rw [c.description_unstopped.active_eq, filterMap_description]

theorem Small.nameOf_description (h : c.Small) {space : Space} {n : Number space} :
    (c.description : Description η).nameOf n =
      if n.isReserved then reservedName else ((c.names space)[n.index - 1]?).getD "" := by
  rw [Description.nameOf]
  cases hn : n.isReserved with
  | true => rfl
  | false => rw [h.label?_description hn]

theorem mem_stateIds_iff : s ∈ c.stateIds ↔ ∃ name, (s, name) ∈ numbered c.states :=
  mem_numbers_iff_numbered

theorem mem_eventIds_iff : e ∈ c.eventIds ↔ ∃ name, (e, name) ∈ numbered c.events :=
  mem_numbers_iff_numbered

/-- The lines of a chart select its states. -/
theorem selected_description :
    (∃ d ∈ (c.description : Description η), d.selected? = some s) ↔ s ∈ c.stateIds := by
  rw [mem_stateIds_iff]
  constructor
  · intro hselected
    obtain ⟨d, hd, hs⟩ := hselected
    rcases mem_description hd with ⟨e, name, -, rfl⟩ | ⟨s', name, hs', rfl⟩ | ⟨e, target, rfl⟩
    · cases hs
    · obtain rfl := Option.some.inj hs
      exact ⟨name, hs'⟩
    · cases hs
  · intro hnumbered
    obtain ⟨name, hs⟩ := hnumbered
    refine ⟨.state s name, List.mem_append_right _ (List.mem_flatMap.mpr ⟨_, hs, ?_⟩), rfl⟩
    exact List.mem_cons_self

theorem labelled_description :
    (∃ d ∈ (c.description : Description η), ∃ name, d.label? .event = some (e, name)) ↔
      e ∈ c.eventIds := by
  rw [mem_eventIds_iff]
  constructor
  · intro hlabelled
    obtain ⟨d, hd, name, he⟩ := hlabelled
    rcases mem_description hd with ⟨e', name', he', rfl⟩ | ⟨s, name', -, rfl⟩ | ⟨e', target, rfl⟩
    · obtain ⟨rfl, rfl⟩ := Prod.mk.inj (Option.some.inj he)
      exact ⟨_, he'⟩
    · cases he
    · cases he
  · intro hnumbered
    obtain ⟨name, he⟩ := hnumbered
    exact ⟨.event e name, List.mem_append_left _ (List.mem_map.mpr ⟨_, he, rfl⟩), name, rfl⟩

/-- The largest of the numbers from 1 to a count is the count. -/
theorem eq_of_numbers (space : Space) {count top : Nat} (h : count < 65536)
    (hle : ∀ n : Number space, n.isReserved = false → n.index ≤ count → n.index ≤ top)
    (hge : top ≤ count) : top = count := by
  by_cases h₀ : count = 0
  · omega
  · have hindex : (Number.ofNat count : Number space).index = count := Number.index_ofNat h
    have := hle (.ofNat count) (Number.isReserved_ofNat (by omega) h) (by omega)
    omega

theorem Small.topState_description (h : c.Small) :
    (c.description : Description η).topState = c.states.length := by
  have hactive := (c.description_unstopped (η := η)).active_eq
  refine eq_of_numbers .state h.states ?_ ?_
  · intro s hs hle
    obtain ⟨d, hd, hselected⟩ := selected_description.mpr (h.mem_stateIds.mpr ⟨hs, hle⟩)
    exact Description.index_le_topState (hactive.symm ▸ hd) hselected
  · apply Description.topState_le_iff.mpr
    rw [hactive]
    intro d hd s hs
    exact (h.mem_stateIds.mp (selected_description.mp ⟨d, hd, hs⟩)).2

theorem Small.topEvent_description (h : c.Small) :
    (c.description : Description η).topEvent = c.events.length := by
  have hactive := (c.description_unstopped (η := η)).active_eq
  refine eq_of_numbers .event h.events ?_ ?_
  · intro e he hle
    obtain ⟨d, hd, name, hlabel⟩ := labelled_description.mpr (h.mem_eventIds.mpr ⟨he, hle⟩)
    exact Description.index_le_topEvent (hactive.symm ▸ hd) hlabel
  · apply Description.topEvent_le_iff.mpr
    rw [hactive]
    intro d hd e name he
    exact (h.mem_eventIds.mp (labelled_description.mp ⟨d, hd, name, he⟩)).2

theorem Small.bindings_description (h : c.Small) :
    (c.description : Description η).bindings =
      c.arrows.map fun arrow => ((some arrow.1, arrow.2.1), arrow.2.2, none) := by
  have hlabels : Description.Unstopped (c.eventLabels : Description η) := by
    intro d hd
    obtain ⟨p, -, rfl⟩ := List.mem_map.mp hd
    rfl
  have hnone : (c.eventLabels : Description η).bindings = [] := by
    rw [Description.bindings, List.map_eq_nil_iff, Description.rules, hlabels.active_eq]
    apply List.filterMap_eq_nil_iff.mpr
    rintro ⟨d, i⟩ hd
    obtain ⟨p, -, rfl⟩ := List.mem_map.mp (List.fst_mem_of_mem_zipIdx hd)
    rfl
  have hs : ∀ p ∈ (numbered c.states : List (StateId × String)), p.1.isReserved = false :=
    fun p hp => (h.mem_stateIds.mp (mem_stateIds_iff.mpr ⟨p.2, hp⟩)).1
  have hblocks := Description.bindings_blocks hlabels c.row _ hs
  rw [hnone, List.nil_append, map_fst_numbered] at hblocks
  rw [arrows, List.map_flatMap]
  simp only [List.map_map]
  exact hblocks

/-- The chart has one transition for a pair at most. -/
theorem Small.keys_nodup (h : c.Small) :
    ((c.description : Description η).bindings.map Prod.fst).Nodup := by
  rw [h.bindings_description, List.map_map, arrows, List.map_flatMap]
  simp only [List.map_map]
  refine List.nodup_flatMap.mpr ⟨?_, ?_⟩
  · intro s _
    rw [row, List.map_filterMap]
    refine (numbers_nodup h.events).filterMap ?_
    intro e e' key he he'
    simp only [Option.mem_def, Option.map_map, Option.map_eq_some_iff] at he he'
    obtain ⟨target, -, rfl⟩ := he
    obtain ⟨target', -, hkey⟩ := he'
    exact (Prod.mk.inj hkey).2.symm
  · refine (numbers_nodup h.states).imp ?_
    intro s s' hne key hkey hkey'
    obtain ⟨move, -, rfl⟩ := List.mem_map.mp hkey
    obtain ⟨move', -, heq⟩ := List.mem_map.mp hkey'
    exact hne (Option.some.inj (Prod.mk.inj heq).1).symm

/-- A pair leads where the chart says, and without a handler. -/
theorem Small.action_description (h : c.Small) {a : StateId × Option η} :
    (c.description.rule? s e).map Rule.action = some a ↔
      (s ∈ c.stateIds ∧ e ∈ c.eventIds ∧ c.target? s e = some a.1) ∧ a.2 = none := by
  rw [Description.action_eq_some_iff h.keys_nodup, h.bindings_description, List.mem_map,
    ← mem_arrows]
  obtain ⟨target, handler⟩ := a
  constructor
  · intro hbound
    obtain ⟨⟨s', e', target'⟩, harrow, heq⟩ := hbound
    simp only [Prod.mk.injEq, Option.some.injEq] at heq
    obtain ⟨⟨rfl, rfl⟩, rfl, rfl⟩ := heq
    exact ⟨harrow, rfl⟩
  · intro hdrawn
    obtain ⟨harrow, rfl⟩ := hdrawn
    exact ⟨_, harrow, rfl⟩

theorem length_flatMap_le {α β : Type} {f : α → List β} {k : Nat} (h : ∀ a, (f a).length ≤ k)
    (xs : List α) : (xs.flatMap f).length ≤ xs.length * k := by
  induction xs with
  | nil => simp
  | cons x xs ih =>
    have hx := h x
    rw [List.flatMap_cons, List.length_append, List.length_cons, Nat.succ_mul]
    omega

/-- Every line has a cell of its own, and one cell is left: that of the numbers 0. -/
theorem length_description (c : Chart) : (c.description : Description η).length < c.cells := by
  have hblock : ∀ p : StateId × String,
      (Description.block p.1 p.2 (c.row p.1) : Description η).length ≤ c.events.length + 1 := by
    intro p
    have hrow : (c.row p.1).length ≤ c.eventIds.length := List.length_filterMap_le _ _
    rw [eventIds, List.length_map, List.length_range'] at hrow
    rw [Description.block, Description.moves, List.length_cons, List.length_map]
    exact Nat.succ_le_succ hrow
  have hblocks := length_flatMap_le hblock (numbered c.states)
  have hcells : c.cells = c.events.length + c.states.length * (c.events.length + 1) + 1 := by
    rw [cells, Nat.succ_mul]
    omega
  rw [numbered, List.length_map, List.length_zipIdx] at hblocks
  rw [description, eventLabels, List.length_append, List.length_map, numbered, List.length_map,
    List.length_zipIdx, hcells]
  exact Nat.lt_succ_of_le (Nat.add_le_add_left hblocks _)

theorem small_of_fits {width : CellWidth} (h : c.cells ≤ width.capacity) : c.Small := by
  have hwidth : width.capacity ≤ 65536 := by cases width <;> decide
  have hstates : c.states.length + 1 ≤ c.cells := Nat.le_mul_of_pos_right _ (Nat.succ_pos _)
  have hevents : c.events.length + 1 ≤ c.cells := Nat.le_mul_of_pos_left _ (Nat.succ_pos _)
  exact ⟨by omega, by omega⟩

theorem Small.rule_description (h : c.Small) {r : Rule η}
    (hr : r ∈ (c.description : Description η).rules) :
    ∃ s, (c.description : Description η).contextAt r.position = some s ∧
      s ∈ c.stateIds ∧ r.event ∈ c.eventIds ∧ c.target? s r.event = some r.target := by
  have hmem := List.mem_map_of_mem (f := fun r : Rule η =>
    (((c.description : Description η).contextAt r.position, r.event), r.action)) hr
  change _ ∈ (c.description : Description η).bindings at hmem
  rw [h.bindings_description, List.mem_map] at hmem
  obtain ⟨⟨s, e, target⟩, harrow, heq⟩ := hmem
  simp only [Rule.action, Prod.mk.injEq] at heq
  obtain ⟨⟨hs, rfl⟩, rfl, -⟩ := heq
  exact ⟨s, hs.symm, mem_arrows.mp harrow⟩

/-- All events are labelled before the first transition. -/
theorem labelsBefore_description (he : e ∈ c.eventIds) {r : Rule η}
    (hr : r ∈ (c.description : Description η).rules) :
    (c.description : Description η).labelsBefore e r.position = true := by
  obtain ⟨name, hname⟩ := mem_eventIds_iff.mp he
  have hlabel : .event e name ∈ (c.eventLabels : Description η) := List.mem_map.mpr ⟨_, hname, rfl⟩
  have hline := Description.mem_rules_iff.mp hr
  rw [c.description_unstopped.active_eq, description] at hline
  have hlength : (c.eventLabels : Description η).length ≤ r.position := by
    by_contra hlt
    rw [List.getElem?_append_left (by omega)] at hline
    obtain ⟨p, -, hp⟩ := List.mem_map.mp (List.mem_of_getElem? hline)
    cases hp
  rw [Description.labelsBefore, c.description_unstopped.active_eq, description]
  refine List.any_eq_true.mpr ⟨.event e name, ?_, by simp [Line.label?]⟩
  exact (List.prefix_take_iff.mpr ⟨List.prefix_append _ _, hlength⟩).subset hlabel

theorem Small.named (h : c.Small) (space : Space) (hnames : ∀ name ∈ c.names space, name ≠ "")
    {n : Number space} (hn : n.isReserved = false) (hle : n.index ≤ (c.names space).length) :
    ((c.description : Description η).label? n).getD "" ≠ "" := by
  have hpos := Number.index_ne_zero hn
  rw [h.label?_description hn, List.getElem?_eq_getElem (by omega), Option.getD_some]
  exact hnames _ (List.getElem_mem _)

theorem Sound.lawful (h : c.Sound) {settings : Settings}
    (hfits : c.cells ≤ settings.width.capacity) :
    (c.description : Description η).Lawful settings := by
  have hsmall := small_of_fits hfits
  have hactive := (c.description_unstopped (η := η)).active_eq
  refine ⟨?_, ?_, ?_, ?_, ?_, ?_, ?_, ?_, ?_, ?_⟩
  · intro d hd s hs
    exact (hsmall.mem_stateIds.mp (selected_description.mp ⟨d, hactive ▸ hd, hs⟩)).1
  · intro d hd e name he
    exact (hsmall.mem_eventIds.mp (labelled_description.mp ⟨d, hactive ▸ hd, name, he⟩)).1
  · intro r hr
    obtain ⟨s, -, -, he, -⟩ := hsmall.rule_description hr
    exact ⟨(hsmall.mem_eventIds.mp he).1, labelsBefore_description he hr⟩
  · intro r hr
    obtain ⟨s, hs, -⟩ := hsmall.rule_description hr
    rw [hs]
    rfl
  · intro r hr
    obtain ⟨s, -, hs, he, htarget⟩ := hsmall.rule_description hr
    rw [hsmall.topState_description]
    exact hsmall.mem_stateIds.mp (h.target s hs r.event he r.target htarget)
  · rw [hsmall.topState_description, hsmall.topEvent_description]
    exact hfits
  · intro r hr
    have hlt := Description.position_lt_length c.description_unstopped hr
    exact (hlt.trans c.length_description).trans_le hfits
  · intro s hs hle
    rw [hsmall.topState_description] at hle
    exact hsmall.named .state h.states hs hle
  · intro e he hle
    rw [hsmall.topEvent_description] at hle
    exact hsmall.named .event h.events he hle
  · intro _
    apply Description.repeatViolations_eq_nil
    intro r hr
    exact Description.not_superseded_of_nodup hsmall.keys_nodup hr

end Chart
end StateMachine

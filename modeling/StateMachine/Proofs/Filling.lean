import Mathlib.Tactic.SplitIfs
import StateMachine.Proofs.Cells
import StateMachine.Proofs.Growth
import StateMachine.Table.Build

namespace StateMachine

/-- What the second pass takes for granted: every number it uses as an index has a place, and
every position can be stored. -/
structure Description.Fits {η : Type} (ds : Description η) (states events : Nat)
    (width : CellWidth) : Prop where
  selected : ∀ d ∈ ds.active, ∀ s, d.selected? = some s → s.index < states
  labelled : ∀ d ∈ ds.active, ∀ e name, d.label? .event = some (e, name) → e.index < events
  rule : ∀ r ∈ ds.rules, r.position ≠ 0 ∧ r.position < width.capacity ∧
    r.event.index < events ∧ ∃ s, ds.contextAt r.position = some s ∧ s.index < states

namespace Filling
variable {η : Type} {ds : Description η} {d : Line η} {S E : Nat} {width : CellWidth}

/-- The cell of a pair has the position of the transition of the pair. -/
structure CellsHold (cells : Cells) (ds : Description η) (S E : Nat) (width : CellWidth) :
    Prop where
  width_eq : cells.width = width
  size_eq : cells.size = S * E
  get_eq : ∀ (s : StateId) (e : EventId), s.index < S → e.index < E →
    cells.get (s.index * E + e.index) = .ok ((ds.rule? s e).map (·.position))

/-- The slot of a state has its last name and its last entry handler. -/
structure StatesHold (states : Array (StateSlot η)) (ds : Description η) (S : Nat) : Prop where
  size_eq : states.size = S
  get_eq : ∀ s : StateId, s.index < S →
    states[s.index]? = some ⟨(ds.label? s).getD "", ds.entryHandler? s⟩

structure EventsHold (events : Array String) (ds : Description η) (E : Nat) : Prop where
  size_eq : events.size = E
  get_eq : ∀ e : EventId, e.index < E → events[e.index]? = some ((ds.label? e).getD "")

theorem CellsHold.nil : CellsHold (.empty width (S * E)) ([] : Description η) S E width := by
  refine ⟨Cells.width_empty _ _, Cells.size_empty _ _, ?_⟩
  intro s e hs he
  exact Cells.get_empty _ (rowMajor_lt hs he)

theorem StatesHold.nil : StatesHold (Array.replicate S {}) ([] : Description η) S := by
  refine ⟨Array.size_replicate, ?_⟩
  intro s hs
  simp only [Array.getElem?_replicate, if_pos hs]
  rfl

theorem EventsHold.nil : EventsHold (Array.replicate E "") ([] : Description η) E := by
  refine ⟨Array.size_replicate, ?_⟩
  intro e he
  simp only [Array.getElem?_replicate, if_pos he]
  rfl

/-- Only a transition changes a cell. -/
theorem CellsHold.skip {cells : Cells} (k : CellsHold cells ds S E width)
    (h : (ds ++ [d]).Unstopped) (hd : d.rule? ds.length = none) :
    CellsHold cells (ds ++ [d]) S E width := by
  refine ⟨k.width_eq, k.size_eq, ?_⟩
  intro s e hs he
  rw [k.get_eq s e hs he, Description.rule?_append h, hd]

/-- A transition is stored in the cell of its pair and in no other. -/
theorem CellsHold.next {cells : Cells} {r : Rule η} {s : StateId}
    (k : CellsHold cells ds S E width) (h : (ds ++ [d]).Unstopped)
    (hd : d.rule? ds.length = some r) (hcontext : ds.contextAt ds.length = some s)
    (hs : s.index < S) (he : r.event.index < E) (h₀ : ds.length ≠ 0)
    (hw : ds.length < width.capacity) :
    ∃ cells', cells.set (s.index * E + r.event.index) ds.length = .ok cells' ∧
      CellsHold cells' (ds ++ [d]) S E width := by
  obtain ⟨cells', hset, hwidth, hsize, hget⟩ :=
    Cells.set_pair k.size_eq hs he h₀ (by rw [k.width_eq]; exact hw)
  refine ⟨cells', hset, hwidth.trans k.width_eq, hsize.trans k.size_eq, ?_⟩
  intro s' e' hs' he'
  rw [hget _ _ he', k.get_eq s' e' hs' he', Description.rule?_append h, hd, hcontext]
  simp only [Number.index_inj, Option.some.injEq]
  by_cases hp : s' = s ∧ e' = r.event
  · obtain ⟨rfl, rfl⟩ := hp
    simp [Description.rule?_position hd]
  · have hp' : ¬ (r.event = e' ∧ s = s') := by
      rintro ⟨rfl, rfl⟩
      exact hp ⟨rfl, rfl⟩
    simp [hp, hp']

theorem update_ok {α : Type} {xs : Array α} {i : Nat} (h : i < xs.size) (f : α → α) :
    update xs i f = .ok (xs.modify i f) :=
  if_pos h

theorem StatesHold.skip {states : Array (StateSlot η)} (k : StatesHold states ds S)
    (h : (ds ++ [d]).Unstopped) (hlabel : d.label? .state = none)
    (hentry : ∀ s handler, d ≠ .onEntry s handler) : StatesHold states (ds ++ [d]) S := by
  refine ⟨k.size_eq, ?_⟩
  intro s hs
  rw [k.get_eq s hs, Description.label?_append h, hlabel, Description.entryHandler?_append h]
  cases d with
  | onEntry s handler => exact absurd rfl (hentry s handler)
  | _ => rfl

/-- A label changes the name of its state and nothing else. -/
theorem StatesHold.label {states : Array (StateSlot η)} {s : StateId} {name : String}
    (k : StatesHold states ds S) (h : (ds ++ [Line.state s name]).Unstopped) :
    StatesHold (states.modify s.index fun slot => { slot with name }) (ds ++ [.state s name])
      S := by
  refine ⟨Array.size_modify.trans k.size_eq, ?_⟩
  intro s' hs'
  rw [Array.getElem?_modify, k.get_eq s' hs', Description.label?_append h,
    Description.entryHandler?_append h]
  by_cases he : s = s' <;> simp [Line.label?, Number.index_inj, he]

theorem StatesHold.entry {states : Array (StateSlot η)} {s : StateId} {handler : η}
    (k : StatesHold states ds S) (h : (ds ++ [Line.onEntry s handler]).Unstopped) :
    StatesHold (states.modify s.index fun slot => { slot with handler := some handler })
      (ds ++ [.onEntry s handler]) S := by
  refine ⟨Array.size_modify.trans k.size_eq, ?_⟩
  intro s' hs'
  rw [Array.getElem?_modify, k.get_eq s' hs', Description.label?_append h,
    Description.entryHandler?_append h]
  by_cases he : s = s' <;> simp [Line.label?, Number.index_inj, he]

theorem EventsHold.skip {events : Array String} (k : EventsHold events ds E)
    (h : (ds ++ [d]).Unstopped) (hlabel : d.label? .event = none) :
    EventsHold events (ds ++ [d]) E := by
  refine ⟨k.size_eq, ?_⟩
  intro e he
  rw [k.get_eq e he, Description.label?_append h, hlabel]

theorem EventsHold.label {events : Array String} {e : EventId} {name : String}
    (k : EventsHold events ds E) (h : (ds ++ [Line.event e name]).Unstopped) :
    EventsHold (events.modify e.index fun _ => name) (ds ++ [.event e name]) E := by
  refine ⟨Array.size_modify.trans k.size_eq, ?_⟩
  intro e' he'
  rw [Array.getElem?_modify, k.get_eq e' he', Description.label?_append h]
  by_cases he : e = e' <;> simp [Line.label?, Number.index_inj, he]

/-- A partly filled table is what the lines read so far mean. The context is only known where a
transition could stand. -/
structure Holds (filling : Filling η) (ds : Description η) (S E : Nat) (width : CellWidth) :
    Prop where
  context : ∀ s, ds.contextAt ds.length = some s → filling.context = s
  cells : CellsHold filling.cells ds S E width
  states : StatesHold filling.states ds S
  events : EventsHold filling.events ds E

theorem context_of_selected {s : StateId} (h : (ds ++ [d]).Unstopped)
    (hd : d.selected? = some s) :
    ∀ s', (ds ++ [d]).contextAt (ds ++ [d]).length = some s' → s = s' := by
  intro s' hs'
  rw [List.length_append, List.length_singleton, Description.contextAt_append_length h, hd] at hs'
  dsimp only at hs'
  split_ifs at hs'
  exact Option.some.inj hs'

theorem context_of_none {s : StateId} (hs : ∀ s', ds.contextAt ds.length = some s' → s = s')
    (h : (ds ++ [d]).Unstopped) (hd : d.selected? = none) :
    ∀ s', (ds ++ [d]).contextAt (ds ++ [d]).length = some s' → s = s' := by
  intro s' hs'
  rw [List.length_append, List.length_singleton, Description.contextAt_append_length h, hd] at hs'
  exact hs s' hs'

theorem fits_front (h : (ds ++ [d]).Unstopped)
    (fits : (ds ++ [d]).Fits S E width) : ds.Fits S E width := by
  have hactive : ∀ c ∈ ds.active, c ∈ (ds ++ [d]).active := by
    intro c hc
    rw [h.front.active_eq] at hc
    rw [h.active_eq]
    exact List.mem_append_left _ hc
  refine ⟨fun c hc => fits.selected c (hactive c hc), fun c hc => fits.labelled c (hactive c hc),
    ?_⟩
  intro r hr
  rw [← Description.contextAt_append_of_mem h hr]
  exact fits.rule r (by rw [Description.rules_append h]; exact List.mem_append_left _ hr)

/-- A line that fits is read without a defect. -/
theorem Holds.read {filling : Filling η} (k : filling.Holds ds S E width)
    (h : (ds ++ [d]).Unstopped) (fits : (ds ++ [d]).Fits S E width) :
    ∃ filling', filling.read E d ds.length = .ok filling' ∧
      filling'.Holds (ds ++ [d]) S E width := by
  have hmem : d ∈ (ds ++ [d]).active := by simp [h.active_eq]
  cases d with
  | stop => cases h .stop (by simp)
  | state s name =>
    have hs : s.index < filling.states.size := by
      rw [k.states.size_eq]
      exact fits.selected _ hmem s rfl
    have hu := update_ok hs fun slot => { slot with name }
    refine ⟨⟨s, filling.cells, _, filling.events⟩, ?_, context_of_selected h rfl,
      k.cells.skip h rfl, k.states.label h, k.events.skip h rfl⟩
    simp only [Filling.read, hu]
    rfl
  | onEntry s handler =>
    have hs : s.index < filling.states.size := by
      rw [k.states.size_eq]
      exact fits.selected _ hmem s rfl
    have hu := update_ok hs fun slot => { slot with handler := some handler }
    refine ⟨⟨s, filling.cells, _, filling.events⟩, ?_, context_of_selected h rfl,
      k.cells.skip h rfl, k.states.entry h, k.events.skip h rfl⟩
    simp only [Filling.read, hu]
    rfl
  | source s =>
    exact ⟨⟨s, filling.cells, filling.states, filling.events⟩, rfl, context_of_selected h rfl,
      k.cells.skip h rfl, k.states.skip h rfl (by simp), k.events.skip h rfl⟩
  | event e name =>
    have he : e.index < filling.events.size := by
      rw [k.events.size_eq]
      exact fits.labelled _ hmem e name rfl
    have hu := update_ok he fun _ => name
    refine ⟨⟨filling.context, filling.cells, filling.states,
      filling.events.modify e.index fun _ => name⟩, ?_, context_of_none k.context h rfl,
      k.cells.skip h rfl, k.states.skip h rfl (by simp), k.events.label h⟩
    simp only [Filling.read, hu]
    rfl
  | next e target handler =>
    have hrule : (⟨ds.length, e, target, handler⟩ : Rule η) ∈
        (ds ++ [Line.next e target handler]).rules := by
      rw [Description.rules_append h]
      exact List.mem_append_right _ (by simp [Line.rule?])
    obtain ⟨h₀, hw, he, s, hcontext, hs⟩ := fits.rule _ hrule
    rw [Description.contextAt_append h (Nat.le_refl _)] at hcontext
    obtain ⟨cells, hset, hcells⟩ := k.cells.next h rfl hcontext hs he h₀ hw
    refine ⟨⟨filling.context, cells, filling.states, filling.events⟩, ?_,
      context_of_none k.context h rfl, hcells, k.states.skip h rfl (by simp),
      k.events.skip h rfl⟩
    rw [← k.context s hcontext] at hset
    simp only [Filling.read, hset]
    rfl

theorem ofLines_append (width : CellWidth) (n : Nat) (x : Extent) (ds : Description η)
    (d : Line η) : ofLines width n x (ds ++ [d]) =
      ofLines width n x ds >>= fun filling => filling.read x.events.toNat d ds.length := by
  simp only [ofLines, List.zipIdx_append, List.foldlM_append, List.zipIdx_singleton,
    List.foldlM_cons, List.foldlM_nil, Nat.zero_add, bind_pure]

theorem ofLines_holds {x : Extent} {n : Nat} (hn : n = x.states.toNat * x.events.toNat)
    (h : ds.Unstopped) (fits : ds.Fits x.states.toNat x.events.toNat width) :
    ∃ filling, ofLines width n x ds = .ok filling ∧
      filling.Holds ds x.states.toNat x.events.toNat width := by
  subst hn
  induction ds using List.reverseRecOn with
  | nil =>
    refine ⟨start width _ x, rfl, ?_, CellsHold.nil, StatesHold.nil, EventsHold.nil⟩
    intro s hs
    cases hs
  | append_singleton ds d ih =>
    obtain ⟨filling, hok, k⟩ := ih h.front (fits_front h fits)
    obtain ⟨filling', hread, k'⟩ := k.read h fits
    refine ⟨filling', ?_, k'⟩
    rw [ofLines_append, hok]
    exact hread

end Filling
end StateMachine

import Mathlib.Logic.Equiv.Basic
import StateMachine.Proofs.NormalForm

namespace StateMachine
variable {η θ : Type}

/-- One more than the largest number of each space. -/
def Extent.limit (x : Extent) : Space → Nat
  | .state => x.states.toNat
  | .event => x.events.toNat

/-- Permutations of the declared numbers below a limit, one in each space. Number 0 and all numbers
from the limit on stay what they are. -/
structure Renumbering (limit : Space → Nat) where
  perm : (space : Space) → Equiv.Perm (Number space)
  fixed : ∀ {space : Space} (n : Number space), n.isReserved = true ∨ limit space ≤ n.index →
    perm space n = n

variable {limit : Space → Nat}

namespace Renumbering
variable (p : Renumbering limit) {space : Space} {n m : Number space}

def on (n : Number space) : Number space := p.perm space n

theorem on_inj : p.on n = p.on m ↔ n = m := (p.perm space).apply_eq_iff_eq

theorem on_injective : Function.Injective (p.on : Number space → Number space) :=
  (p.perm space).injective

theorem exists_on (n : Number space) : ∃ m, p.on m = n := (p.perm space).surjective n

@[simp] theorem on_beq : (p.on n == p.on m) = (n == m) := by
  rw [Bool.eq_iff_iff, beq_iff_eq, beq_iff_eq, p.on_inj]

@[simp] theorem isReserved_on : (p.on n).isReserved = n.isReserved := by
  have hreserved : p.on (.reserved : Number space) = .reserved :=
    p.fixed _ (.inl (beq_self_eq_true _))
  have hbeq := p.on_beq (n := n) (m := .reserved)
  rwa [hreserved] at hbeq

theorem on_eq_of_limit_le (h : limit space ≤ n.index) : p.on n = n := p.fixed n (.inr h)

@[simp] theorem on_lt_iff : (p.on n).index < limit space ↔ n.index < limit space := by
  constructor
  · intro h
    by_contra hn
    rw [p.on_eq_of_limit_le (Nat.le_of_not_lt hn)] at h
    exact hn h
  · intro h
    by_contra hn
    have hstays := p.on_eq_of_limit_le (Nat.le_of_not_lt hn)
    rw [p.on_inj.mp hstays] at hn
    exact hn h

/-- What looks at numbers out of range only does not notice a renumbering. -/
theorem ite_on {α : Type} (n : Number space) (a : α) (f : Number space → α) :
    (if (p.on n).index < limit space then a else f (p.on n)) =
      if n.index < limit space then a else f n := by
  by_cases hn : n.index < limit space
  · rw [if_pos hn, if_pos (p.on_lt_iff.mpr hn)]
  · rw [p.on_eq_of_limit_le (Nat.le_of_not_lt hn)]

end Renumbering

def Line.renumber (p : Renumbering limit) : Line η → Line η
  | stop => stop
  | state s name => state (p.on s) name
  | event e name => event (p.on e) name
  | onEntry s handler => onEntry (p.on s) handler
  | source s => source (p.on s)
  | next e target handler => next (p.on e) (p.on target) handler

def Rule.renumber (p : Renumbering limit) (r : Rule η) : Rule η :=
  ⟨r.position, p.on r.event, p.on r.target, r.handler⟩

/-- Only active lines are renumbered. -/
def Description.renumber (p : Renumbering limit) (ds : Description η) : Description η :=
  ds.active.map (Line.renumber p) ++ ds.dropWhile (!·.isStop)

namespace Line
variable (p : Renumbering limit) (d : Line η)

theorem isStop_renumber : (d.renumber p).isStop = d.isStop := by
  cases d <;> rfl

theorem map_renumber (f : η → θ) : (d.renumber p).map f = (d.map f).renumber p := by
  cases d <;> rfl

theorem handler?_renumber : (d.renumber p).handler? = d.handler? := by
  cases d <;> rfl

theorem selected?_renumber : (d.renumber p).selected? = d.selected?.map p.on := by
  cases d <;> rfl

theorem label?_renumber (space : Space) :
    (d.renumber p).label? space = (d.label? space).map fun (n, name) => (p.on n, name) := by
  cases space <;> cases d <;> rfl

theorem rule?_renumber (i : Nat) : (d.renumber p).rule? i = (d.rule? i).map (Rule.renumber p) := by
  cases d <;> rfl

end Line

namespace Description
variable (p : Renumbering limit) (ds : Description η) {settings : Settings}

theorem active_renumber : (ds.renumber p).active = ds.active.map (Line.renumber p) := by
  have hrest : (ds.dropWhile (!·.isStop)).takeWhile (!·.isStop) = [] := by
    rw [List.takeWhile_eq_nil_iff]
    intro hlt hd
    exact List.dropWhile_get_zero_not _ ds hlt (by simpa using hd)
  rw [renumber, active, List.takeWhile_append_of_pos, hrest, List.append_nil]
  intro d hd
  obtain ⟨c, hc, rfl⟩ := List.mem_map.mp hd
  simp [c.isStop_renumber p, ds.active_unstopped c hc]

theorem map_renumber (f : η → θ) :
    (ds.renumber p).map (Line.map f) = renumber p (ds.map (Line.map f)) := by
  have hstop : (fun d : Line θ => !d.isStop) ∘ Line.map f = fun d : Line η => !d.isStop := by
    funext d
    exact congrArg (!·) (d.isStop_map f)
  rw [renumber, renumber, List.map_append, active_map, List.map_map, List.map_map,
    List.dropWhile_map, hstop]
  congr 2
  funext d
  exact d.map_renumber p f

theorem plain_renumber {ds : Description η} (h : ∀ d ∈ ds.active, d.handler? = none) :
    ∀ d ∈ (ds.renumber p).active, d.handler? = none := by
  rw [active_renumber]
  intro d hd
  obtain ⟨c, hc, rfl⟩ := List.mem_map.mp hd
  rw [c.handler?_renumber, h c hc]

theorem contextAt_renumber (i : Nat) :
    (ds.renumber p).contextAt i = (ds.contextAt i).map p.on := by
  have hselected : Line.selected? ∘ Line.renumber p = Option.map p.on ∘ (Line.selected? (η := η)) :=
    funext fun d => d.selected?_renumber p
  have hreserved : (fun s : StateId => !s.isReserved) ∘ p.on = fun s => !s.isReserved :=
    funext fun s => congrArg (!·) p.isReserved_on
  rw [contextAt, active_renumber, ← List.map_take, ← List.map_reverse, List.findSome?_map, hselected,
    ← List.map_findSome?, Option.filter_map, hreserved, contextAt]

theorem rules_renumber : (ds.renumber p).rules = ds.rules.map (Rule.renumber p) := by
  rw [rules, active_renumber, List.zipIdx_map, List.filterMap_map, rules, List.map_filterMap]
  apply List.filterMap_congr
  rintro ⟨d, i⟩ _
  exact d.rule?_renumber p i

theorem rule?_renumber (s : StateId) (e : EventId) :
    (ds.renumber p).rule? (p.on s) (p.on e) = (ds.rule? s e).map (Rule.renumber p) := by
  rw [rule?, rules_renumber, ← List.map_reverse, List.find?_map, rule?]
  congr 2
  funext r
  rw [Function.comp_apply, Rule.renumber, contextAt_renumber, p.on_beq]
  cases ds.contextAt r.position with
  | none => rfl
  | some s' => rw [Option.map_some, Option.some_beq_some, p.on_beq, Option.some_beq_some]

theorem entryHandler?_renumber (s : StateId) :
    (ds.renumber p).entryHandler? (p.on s) = ds.entryHandler? s := by
  rw [entryHandler?, active_renumber, ← List.map_reverse, List.findSome?_map, entryHandler?]
  congr 1
  funext d
  cases d <;> simp [Line.renumber, p.on_inj]

theorem label?_renumber {space : Space} (n : Number space) :
    (ds.renumber p).label? (p.on n) = ds.label? n := by
  have hlabels : Line.label? space ∘ Line.renumber p =
      fun d : Line η => (d.label? space).map fun (n, name) => (p.on n, name) :=
    funext fun d => d.label?_renumber p space
  rw [label?, active_renumber, ← List.map_reverse, List.filterMap_map, hlabels, ← List.map_filterMap,
    List.findSome?_map, label?]
  congr 1
  funext m
  exact if_congr p.on_inj rfl rfl

theorem nameOf_renumber {space : Space} (n : Number space) :
    (ds.renumber p).nameOf (p.on n) = ds.nameOf n := by
  rw [nameOf, label?_renumber, p.isReserved_on, nameOf]

theorem labelsBefore_renumber (e : EventId) (i : Nat) :
    (ds.renumber p).labelsBefore (p.on e) i = ds.labelsBefore e i := by
  rw [labelsBefore, active_renumber, ← List.map_take, List.any_map, labelsBefore]
  congr 1
  funext d
  rw [Function.comp_apply, Line.label?_renumber, Option.any_map]
  simp only [p.on_beq]

variable {p ds}

theorem selected_renumber {d : Line η} (hd : d ∈ (ds.renumber p).active) {s : StateId}
    (hs : d.selected? = some s) : ∃ c ∈ ds.active, ∃ s', c.selected? = some s' ∧ p.on s' = s := by
  rw [active_renumber] at hd
  obtain ⟨c, hc, rfl⟩ := List.mem_map.mp hd
  rw [c.selected?_renumber] at hs
  exact ⟨c, hc, Option.map_eq_some_iff.mp hs⟩

theorem labelled_renumber {d : Line η} (hd : d ∈ (ds.renumber p).active) {e : EventId}
    {name : String} (he : d.label? .event = some (e, name)) :
    ∃ c ∈ ds.active, ∃ e', c.label? .event = some (e', name) ∧ p.on e' = e := by
  rw [active_renumber] at hd
  obtain ⟨c, hc, rfl⟩ := List.mem_map.mp hd
  rw [c.label?_renumber] at he
  obtain ⟨⟨e', name'⟩, he', heq⟩ := Option.map_eq_some_iff.mp he
  obtain ⟨hon, rfl⟩ := Prod.mk.inj heq
  exact ⟨c, hc, e', he', hon⟩

/-- The numbers of a description are those that may be renumbered. -/
def Spans (ds : Description η) (limit : Space → Nat) : Prop :=
  ∀ space, limit space = ds.top space + 1

theorem Spans.on_le_iff (k : ds.Spans limit) (space : Space) {n : Number space} :
    (p.on n).index ≤ ds.top space ↔ n.index ≤ ds.top space := by
  rw [← Nat.lt_succ_iff, ← Nat.lt_succ_iff, Nat.succ_eq_add_one, ← k space, p.on_lt_iff]

theorem Spans.renumber_top_le (k : ds.Spans limit) (space : Space) :
    (ds.renumber p).top space ≤ ds.top space := by
  cases space with
  | state =>
    refine topState_le_iff.mpr ?_
    intro d hd s hs
    obtain ⟨c, hc, s', hs', rfl⟩ := selected_renumber hd hs
    exact (k.on_le_iff .state).mpr (index_le_topState hc hs')
  | event =>
    refine topEvent_le_iff.mpr ?_
    intro d hd e name he
    obtain ⟨c, hc, e', he', rfl⟩ := labelled_renumber hd he
    exact (k.on_le_iff .event).mpr (index_le_topEvent hc he')

theorem Lawful.named (h : ds.Lawful settings) {space : Space} {n : Number space}
    (hn : n.index ≤ ds.top space) : ds.nameOf n ≠ "" := by
  cases space with
  | state => exact h.state_named hn
  | event => exact h.event_named hn

theorem top_lt (ds : Description η) (space : Space) : ds.top space < 65536 := by
  cases space with
  | state => exact ds.topState_lt
  | event => exact ds.topEvent_lt

/-- The number that is renumbered to the largest has a label, which shows up there. -/
theorem Lawful.top_renumber (h : ds.Lawful settings) (k : ds.Spans limit) (space : Space) :
    (ds.renumber p).top space = ds.top space := by
  apply Nat.le_antisymm (k.renumber_top_le space)
  obtain ⟨m, hm⟩ := p.exists_on (.ofNat (ds.top space) : Number space)
  have hindex : (p.on m).index = ds.top space := by rw [hm, Number.index_ofNat (ds.top_lt space)]
  have hrange : m.index ≤ ds.top space := (k.on_le_iff space (p := p)).mp (Nat.le_of_eq hindex)
  rw [← hindex]
  by_contra hbeyond
  have hnone := nameOf_beyond (Nat.lt_of_not_le hbeyond)
  rw [nameOf_renumber] at hnone
  exact h.named hrange hnone

theorem not_superseded_renumber {r : Rule η} (h : ¬ ds.Superseded r) :
    ¬ (ds.renumber p).Superseded (r.renumber p) := by
  intro hsuperseded
  obtain ⟨r', hr', hlt, he, hs⟩ := hsuperseded
  rw [rules_renumber] at hr'
  obtain ⟨r', hmem, rfl⟩ := List.mem_map.mp hr'
  rw [contextAt_renumber, contextAt_renumber] at hs
  exact h ⟨r', hmem, hlt, p.on_inj.mp he, Option.map_injective p.on_injective hs⟩

/-- Renumbered, a lawful description is lawful. -/
theorem Lawful.renumber (h : ds.Lawful settings) (k : ds.Spans limit) :
    (ds.renumber p).Lawful settings := by
  have hstates : (ds.renumber p).topState = ds.topState := h.top_renumber k .state
  have hevents : (ds.renumber p).topEvent = ds.topEvent := h.top_renumber k .event
  have hnamed {space : Space} {n : Number space} (hn : n.isReserved = false)
      (hle : n.index ≤ ds.top space) : ((ds.renumber p).label? n).getD "" ≠ "" := by
    obtain ⟨m, rfl⟩ := p.exists_on n
    have hname := h.named ((k.on_le_iff space).mp hle)
    rw [p.isReserved_on] at hn
    rwa [nameOf, hn, ← label?_renumber p] at hname
  refine ⟨?_, ?_, ?_, ?_, ?_, ?_, ?_, ?_, ?_, ?_⟩
  · intro d hd s hs
    obtain ⟨c, hc, s', hs', rfl⟩ := selected_renumber hd hs
    rw [p.isReserved_on, h.selected c hc s' hs']
  · intro d hd e name he
    obtain ⟨c, hc, e', he', rfl⟩ := labelled_renumber hd he
    rw [p.isReserved_on, h.labelled c hc e' name he']
  · rw [rules_renumber, List.forall_mem_map]
    intro r hr
    rw [Rule.renumber, p.isReserved_on, labelsBefore_renumber]
    exact h.event r hr
  · rw [rules_renumber, List.forall_mem_map]
    intro r hr
    rw [contextAt_renumber, Option.isSome_map]
    exact h.context r hr
  · rw [rules_renumber, List.forall_mem_map, hstates]
    intro r hr
    rw [Rule.renumber, p.isReserved_on]
    exact ⟨(h.target r hr).1, (k.on_le_iff .state).mpr (h.target r hr).2⟩
  · rw [hstates, hevents]
    exact h.cells
  · rw [rules_renumber, List.forall_mem_map]
    exact h.position
  · rw [hstates]
    exact fun s => hnamed
  · rw [hevents]
    exact fun e => hnamed
  · intro hrepeats
    apply repeatViolations_eq_nil
    rw [rules_renumber, List.forall_mem_map]
    exact fun r hr => not_superseded_renumber (h.not_superseded hrepeats hr)

theorem Lawful.extent_renumber (h : ds.Lawful settings) (k : ds.Spans limit) :
    (ds.renumber p).extent = ds.extent := by
  have hstates : (ds.renumber p).topState = ds.topState := h.top_renumber k .state
  have hevents : (ds.renumber p).topEvent = ds.topEvent := h.top_renumber k .event
  rw [extent_eq, extent_eq, hstates, hevents, active_renumber, List.length_map]

theorem spans_extent (ds : Description η) : ds.Spans ds.extent.limit
  | .state => ds.states_extent
  | .event => ds.events_extent

end Description
end StateMachine

import StateMachine.Proofs.Widths

namespace StateMachine

namespace Description
variable {η θ : Type} {ds : Description η} {d : Line η} {r : Rule η} {i : Nat}
  {settings : Settings}

instance (ds : Description η) (r : Rule η) : Decidable (ds.Superseded r) :=
  inferInstanceAs (Decidable (∃ r' ∈ ds.rules, r.position < r'.position ∧ r'.event = r.event ∧
    ds.contextAt r'.position = ds.contextAt r.position))

/-- A transition that a later one supersedes leaves only the selection of its state behind. -/
def settle (ds : Description η) (d : Line η) (position : Nat) : Line η :=
  match d.rule? position, ds.contextAt position with
  | some r, some s => if ds.Superseded r then .source s else d
  | _, _ => d

/-- The same description without its superseded transitions, line by line. -/
def settled (ds : Description η) : Description η :=
  ds.zipIdx.map fun (d, position) => ds.settle d position

theorem settle_cases (ds : Description η) (d : Line η) (i : Nat) :
    ds.settle d i = d ∨ ∃ r s, d.rule? i = some r ∧ ds.contextAt i = some s ∧
      ds.Superseded r ∧ ds.settle d i = .source s := by
  unfold settle
  cases hr : d.rule? i with
  | none => exact .inl rfl
  | some r =>
    cases hs : ds.contextAt i with
    | none => exact .inl rfl
    | some s =>
      by_cases hsuperseded : ds.Superseded r
      · exact .inr ⟨r, s, rfl, rfl, hsuperseded, if_pos hsuperseded⟩
      · exact .inl (if_neg hsuperseded)

theorem superseded_map (f : η → θ) (ds : Description η) (r : Rule η) :
    Superseded (ds.map (Line.map f)) (r.map f) ↔ ds.Superseded r := by
  simp only [Superseded, rules_map, List.mem_map, contextAt_map]
  constructor
  · rintro ⟨-, ⟨r', hr', rfl⟩, hlater⟩
    exact ⟨r', hr', hlater⟩
  · rintro ⟨r', hr', hlater⟩
    exact ⟨_, ⟨r', hr', rfl⟩, hlater⟩

theorem settle_map (f : η → θ) (ds : Description η) (d : Line η) (i : Nat) :
    settle (ds.map (Line.map f)) (d.map f) i = (ds.settle d i).map f := by
  rw [settle, settle, Line.rule?_map, contextAt_map]
  cases d.rule? i with
  | none => rfl
  | some r =>
    cases ds.contextAt i with
    | none => rfl
    | some s =>
      simp only [Option.map_some, superseded_map]
      split_ifs <;> rfl

/-- Handlers have no part in settling. -/
theorem settled_map (f : η → θ) (ds : Description η) :
    settled (ds.map (Line.map f)) = ds.settled.map (Line.map f) := by
  rw [settled, settled, List.zipIdx_map, List.map_map, List.map_map]
  exact List.map_congr_left fun x _ => ds.settle_map f x.1 x.2

/-- What neither a transition nor a source line has to say is the same after settling. -/
theorem settle_eq {β : Type} (g : Line η → β)
    (hg : ∀ e target handler s, g (.next e target handler) = g (.source s)) (d : Line η) (i : Nat) :
    g (ds.settle d i) = g d := by
  rcases ds.settle_cases d i with h | ⟨r, s, hr, -, -, h⟩
  · rw [h]
  · rw [h]
    cases d with
    | next e target handler => exact (hg e target handler s).symm
    | _ => cases hr

theorem takeWhile_zipIdx {α : Type} (p : α → Bool) (xs : List α) (n : Nat) :
    (xs.zipIdx n).takeWhile (fun x => p x.1) = (xs.takeWhile p).zipIdx n := by
  induction xs generalizing n with
  | nil => rfl
  | cons x xs ih =>
    rw [List.zipIdx_cons, List.takeWhile_cons, List.takeWhile_cons]
    cases p x with
    | true => simp only [if_true, List.zipIdx_cons, ih]
    | false => rfl

theorem active_settled (ds : Description η) :
    ds.settled.active = ds.active.zipIdx.map fun (d, position) => ds.settle d position := by
  rw [active, settled, List.takeWhile_map, active, ← takeWhile_zipIdx]
  congr 2
  funext x
  exact congrArg (!·) (settle_eq Line.isStop (fun _ _ _ _ => rfl) x.1 x.2)

theorem getElem?_active_settled (i : Nat) :
    ds.settled.active[i]? = ds.active[i]?.map fun d => ds.settle d i := by
  rw [active_settled, List.getElem?_map, List.getElem?_zipIdx, Option.map_map]
  simp only [Nat.zero_add, Function.comp_def]

@[simp] theorem length_active_settled (ds : Description η) :
    ds.settled.active.length = ds.active.length := by
  rw [active_settled, List.length_map, List.length_zipIdx]

theorem map_settled {β : Type} (g : Line η → β)
    (hg : ∀ e target handler s, g (.next e target handler) = g (.source s)) :
    ds.settled.active.map g = ds.active.map g := by
  rw [active_settled, List.map_map]
  conv_rhs => rw [← ds.active.zipIdx_map_fst 0, List.map_map]
  apply List.map_congr_left
  intro x _
  exact settle_eq g hg x.1 x.2

theorem filterMap_settled {β : Type} (g : Line η → Option β)
    (hg : ∀ e target handler s, g (.next e target handler) = g (.source s)) :
    ds.settled.active.filterMap g = ds.active.filterMap g := by
  have hmap := congrArg (List.filterMap id) (ds.map_settled g hg)
  simpa only [List.filterMap_map, Function.id_comp] using hmap

@[simp] theorem label?_settled {space : Space} (n : Number space) : ds.settled.label? n = ds.label? n := by
  have hlabels := ds.filterMap_settled (Line.label? space)
    fun _ _ _ _ => by cases space <;> rfl
  rw [label?, label?, List.filterMap_reverse, List.filterMap_reverse, hlabels]

@[simp] theorem nameOf_settled {space : Space} (n : Number space) :
    ds.settled.nameOf n = ds.nameOf n := by
  simp [nameOf]

@[simp] theorem topEvent_settled (ds : Description η) : ds.settled.topEvent = ds.topEvent := by
  rw [topEvent, topEvent, ds.filterMap_settled (Line.label? .event) fun _ _ _ _ => rfl]

theorem findSome?_settled {β : Type} (g : Line η → Option β)
    (hg : ∀ e target handler s, g (.next e target handler) = g (.source s)) :
    ds.settled.active.reverse.findSome? g = ds.active.reverse.findSome? g := by
  have hmap := congrArg (fun found => found.reverse.findSome? id) (ds.map_settled g hg)
  rw [← List.map_reverse, ← List.map_reverse, List.findSome?_map, List.findSome?_map] at hmap
  exact hmap

@[simp] theorem entryHandler?_settled (s : StateId) : ds.settled.entryHandler? s = ds.entryHandler? s :=
  findSome?_settled _ fun _ _ _ _ => rfl

theorem any_settled (g : Line η → Bool)
    (hg : ∀ e target handler s, g (.next e target handler) = g (.source s)) (i : Nat) :
    (ds.settled.active.take i).any g = (ds.active.take i).any g := by
  have hmap := congrArg (fun found => (found.take i).any id) (ds.map_settled g hg)
  rw [← List.map_take, ← List.map_take, List.any_map, List.any_map] at hmap
  exact hmap

@[simp] theorem labelsBefore_settled (e : EventId) (i : Nat) :
    ds.settled.labelsBefore e i = ds.labelsBefore e i :=
  any_settled _ (fun _ _ _ _ => rfl) i

/-- The context after a line is what the line selects, or else the context before it. -/
theorem contextAt_succ (ds : Description η) (i : Nat) :
    ds.contextAt (i + 1) = match ds.active[i]?.bind Line.selected? with
      | some s => if s.isReserved then none else some s
      | none => ds.contextAt i := by
  rw [contextAt, List.take_add_one, List.reverse_append, List.findSome?_append]
  cases hd : ds.active[i]? with
  | none => rfl
  | some d =>
    cases hs : d.selected? with
    | none => simp [hs, contextAt]
    | some s => cases h₀ : s.isReserved <;> simp [hs, h₀, Option.filter]

/-- Settling changes no context: what it puts in selects the state that is selected already. -/
@[simp] theorem contextAt_settled (ds : Description η) (i : Nat) :
    ds.settled.contextAt i = ds.contextAt i := by
  induction i with
  | zero => rfl
  | succ i ih =>
    rw [contextAt_succ, contextAt_succ, getElem?_active_settled, ih]
    cases hd : ds.active[i]? with
    | none => rfl
    | some d =>
      rcases ds.settle_cases d i with h | ⟨r, s, hr, hs, -, h⟩
      · simp only [Option.map_some, Option.bind_some, h]
      · have hselected : d.selected? = none := by
          cases d with
          | next => rfl
          | _ => cases hr
        have hs₀ := (contextAt_selected hs).1
        simp only [Option.map_some, Option.bind_some, h, hselected, hs]
        simp [Line.selected?, hs₀]

@[simp] theorem topState_settled (ds : Description η) : ds.settled.topState = ds.topState := by
  apply Nat.le_antisymm
  · apply topState_le_iff.mpr
    intro d hd s hs
    obtain ⟨i, hi⟩ := List.mem_iff_getElem?.mp hd
    rw [getElem?_active_settled] at hi
    obtain ⟨d', hd', rfl⟩ := Option.map_eq_some_iff.mp hi
    rcases ds.settle_cases d' i with h | ⟨r, s', -, hs', -, h⟩
    · rw [h] at hs
      exact index_le_topState (List.mem_of_getElem? hd') hs
    · rw [h] at hs
      obtain rfl := Option.some.inj hs
      obtain ⟨-, c, hc, hselected⟩ := contextAt_selected hs'
      exact index_le_topState hc hselected
  · apply topState_le_iff.mpr
    intro d hd s hs
    obtain ⟨i, hi⟩ := List.mem_iff_getElem?.mp hd
    have hd' : ds.settled.active[i]? = some (ds.settle d i) := by
      rw [getElem?_active_settled, hi]
      rfl
    rcases ds.settle_cases d i with h | ⟨r, s', hr, -, -, -⟩
    · rw [h] at hd'
      exact index_le_topState (List.mem_of_getElem? hd') hs
    · cases d with
      | next => cases hs
      | _ => cases hr

/-- Settling brings no new transitions. -/
theorem mem_rules_of_settled (h : r ∈ ds.settled.rules) : r ∈ ds.rules := by
  rw [mem_rules_iff, getElem?_active_settled] at h
  obtain ⟨d, hd, hr⟩ := Option.map_eq_some_iff.mp h
  rcases ds.settle_cases d r.position with hkept | ⟨r', s, -, -, -, hsource⟩
  · rw [hkept] at hr
    exact mem_rules_iff.mpr (hr ▸ hd)
  · rw [hsource] at hr
    cases hr

theorem superseded_of_settled (h : ds.settled.Superseded r) : ds.Superseded r := by
  obtain ⟨r', hr', hlt, he, hcontext⟩ := h
  exact ⟨r', mem_rules_of_settled hr', hlt, he, by simpa using hcontext⟩

theorem settle_settle (ds : Description η) (d : Line η) (i : Nat) :
    ds.settled.settle (ds.settle d i) i = ds.settle d i := by
  rcases ds.settled.settle_cases (ds.settle d i) i with h | ⟨r, s, hr, hs, hsuperseded, -⟩
  · exact h
  · rcases ds.settle_cases d i with hkept | ⟨r', s', -, -, -, hsource⟩
    · rw [hkept] at hr
      rw [contextAt_settled] at hs
      simp only [settle, hr, hs, if_pos (superseded_of_settled hsuperseded)] at hkept
      rw [← hkept] at hr
      cases hr
    · rw [hsource] at hr
      cases hr

/-- What is settled stays as it is. -/
theorem settled_settled (ds : Description η) : ds.settled.settled = ds.settled := by
  rw [settled]
  apply List.ext_getElem?
  intro i
  simp only [List.getElem?_map, List.getElem?_zipIdx, settled, Option.map_map, Nat.zero_add,
    Function.comp_def]
  cases ds[i]? with
  | none => rfl
  | some d => exact congrArg some (ds.settle_settle d i)

/-- What is left are the transitions that nothing supersedes. -/
theorem mem_rules_settled (hcontext : ∀ r ∈ ds.rules, (ds.contextAt r.position).isSome = true) :
    r ∈ ds.settled.rules ↔ r ∈ ds.rules ∧ ¬ ds.Superseded r := by
  rw [mem_rules_iff, mem_rules_iff, getElem?_active_settled]
  constructor
  · intro h
    have hmem := mem_rules_of_settled (mem_rules_iff.mpr (getElem?_active_settled _ ▸ h))
    have hd := mem_rules_iff.mp hmem
    obtain ⟨s, hs⟩ := Option.isSome_iff_exists.mp (hcontext r hmem)
    refine ⟨hd, fun hsuperseded => ?_⟩
    simp only [hd, Option.map_some, settle, Line.rule?, hs, if_pos hsuperseded, Option.some.injEq,
      reduceCtorEq] at h
  · intro hkept
    obtain ⟨hd, hlast⟩ := hkept
    rw [hd, Option.map_some]
    rcases ds.settle_cases (.next r.event r.target r.handler) r.position with
      hkept | ⟨r', s, hr', -, hsuperseded, -⟩
    · rw [hkept]
    · obtain rfl : r = r' := Option.some.inj hr'
      exact absurd hsuperseded hlast

theorem declares_settled (hcontext : ∀ r ∈ ds.rules, (ds.contextAt r.position).isSome = true)
    {s : StateId} {e : EventId} :
    ds.settled.Declares s e r ↔ ds.Declares s e r ∧ ¬ ds.Superseded r := by
  rw [Declares, Declares, mem_rules_settled hcontext, contextAt_settled]
  constructor
  · intro hleft
    obtain ⟨⟨hr, hlast⟩, hpair⟩ := hleft
    exact ⟨⟨hr, hpair⟩, hlast⟩
  · intro hdeclared
    obtain ⟨⟨hr, hpair⟩, hlast⟩ := hdeclared
    exact ⟨⟨hr, hlast⟩, hpair⟩

/-- The last transition of a pair is the one that is left, in its own place. -/
theorem rule?_settled (hcontext : ∀ r ∈ ds.rules, (ds.contextAt r.position).isSome = true)
    (s : StateId) (e : EventId) : ds.settled.rule? s e = ds.rule? s e := by
  cases h : ds.rule? s e with
  | none =>
    apply rule?_eq_none_iff.mpr
    intro r hr
    exact rule?_eq_none_iff.mp h r ((declares_settled hcontext).mp hr).1
  | some r =>
    obtain ⟨hr, hlast⟩ := rule?_eq_some_iff.mp h
    apply rule?_eq_some_iff.mpr
    refine ⟨(declares_settled hcontext).mpr ⟨hr, not_superseded_of_rule? h⟩, ?_⟩
    intro r' hr'
    exact hlast r' ((declares_settled hcontext).mp hr').1

theorem alike_settled (hcontext : ∀ r ∈ ds.rules, (ds.contextAt r.position).isSome = true) :
    ds.Alike ds.settled :=
  ⟨ds.topState_settled.symm, ds.topEvent_settled.symm, fun n => (nameOf_settled n).symm,
    fun s => (entryHandler?_settled s).symm, fun s e => by rw [rule?_settled hcontext]⟩

/-- Where no transition supersedes another, there is no repetition to report. -/
theorem repeatViolations_eq_nil (h : ∀ r ∈ ds.rules, ¬ ds.Superseded r) :
    ds.repeatViolations = [] := by
  apply List.filterMap_eq_nil_iff.mpr
  intro r hr
  unfold repeatViolation?
  cases hs : ds.contextAt r.position with
  | none => rfl
  | some s =>
    dsimp only
    split_ifs
    · rfl
    · rw [Option.map_eq_none_iff, List.getLast?_eq_none_iff]
      apply List.filter_eq_nil_iff.mpr
      intro earlier hearlier hpair
      simp only [Bool.and_eq_true, decide_eq_true_eq, beq_iff_eq] at hpair
      obtain ⟨⟨hlt, he⟩, hcontext⟩ := hpair
      exact h earlier hearlier ⟨r, hr, hlt, he.symm, hs.trans hcontext.symm⟩

/-- A settled description is lawful, and without any repetition. -/
theorem Lawful.settled {width : CellWidth} {repeats repeats' : RepeatPolicy}
    (h : ds.Lawful ⟨width, repeats⟩) : ds.settled.Lawful ⟨width, repeats'⟩ := by
  have hrules : ∀ r ∈ ds.settled.rules, r ∈ ds.rules ∧ ¬ ds.Superseded r :=
    fun r hr => (mem_rules_settled h.context).mp hr
  refine ⟨?_, ?_, ?_, ?_, ?_, ?_, ?_, ?_, ?_, ?_⟩
  · intro d hd s hs
    obtain ⟨i, hi⟩ := List.mem_iff_getElem?.mp hd
    rw [getElem?_active_settled] at hi
    obtain ⟨d', hd', rfl⟩ := Option.map_eq_some_iff.mp hi
    rcases ds.settle_cases d' i with hkept | ⟨r, s', -, hs', -, hsource⟩
    · rw [hkept] at hs
      exact h.selected d' (List.mem_of_getElem? hd') s hs
    · rw [hsource] at hs
      obtain rfl := Option.some.inj hs
      exact (contextAt_selected hs').1
  · intro d hd e name he
    obtain ⟨i, hi⟩ := List.mem_iff_getElem?.mp hd
    rw [getElem?_active_settled] at hi
    obtain ⟨d', hd', rfl⟩ := Option.map_eq_some_iff.mp hi
    rw [settle_eq (Line.label? .event) (fun _ _ _ _ => rfl)] at he
    exact h.labelled d' (List.mem_of_getElem? hd') e name he
  · intro r hr
    simpa using h.event r (hrules r hr).1
  · intro r hr
    simpa using h.context r (hrules r hr).1
  · intro r hr
    simpa using h.target r (hrules r hr).1
  · simpa using h.cells
  · intro r hr
    exact h.position r (hrules r hr).1
  · intro s hs hle
    simpa using h.states s hs (by simpa using hle)
  · intro e he hle
    simpa using h.events e he (by simpa using hle)
  · intro _
    apply repeatViolations_eq_nil
    intro r hr hsuperseded
    obtain ⟨r', hr', hlt, he, hs⟩ := hsuperseded
    rw [contextAt_settled, contextAt_settled] at hs
    exact (hrules r hr).2 ⟨r', (hrules r' hr').1, hlt, he, hs⟩

example : turnstile.settled.map Line.kind =
    ["event", "event", "state", "from", "state", "next", "from", "next"] := by decide

theorem Lawful.relax {width : CellWidth} (h : ds.Lawful ⟨width, .reject⟩) :
    ds.Lawful ⟨width, .lastWins⟩ :=
  { h with once := fun hreject => by cases hreject }

theorem filter_not_repeated (ds : Description η) (width : CellWidth) :
    (ds.violations ⟨width, .reject⟩).filter (!·.isRepeated) = ds.violations ⟨width, .lastWins⟩ := by
  have hkept : ∀ p ∈ ds.textViolations
      ++ (ds.cellViolations width.capacity ++ ds.positionViolations width.capacity)
      ++ ds.nameViolations, (!p.isRepeated) = true := by
    intro p hp
    rw [Bool.not_eq_true']
    rcases List.mem_append.mp hp with hp | hp
    · rcases List.mem_append.mp hp with hp | hp
      · exact (plain_of_mem_textViolations hp).2
      · exact (mem_capacityViolations hp).2
    · exact (plain_of_mem_nameViolations hp).2
  have hdropped : ∀ p ∈ ds.repeatViolations, ¬ (!p.isRepeated) = true := by
    intro p hp
    rw [(mem_repeatViolations hp).2]
    decide
  rw [violations_eq, violations_eq, List.filter_append, List.filter_eq_self.mpr hkept,
    policyViolations, List.filter_eq_nil_iff.mpr hdropped]
  rfl

end Description

/-- A transition that a later one supersedes shows as a mere source line. -/
def View.settled (view : View) : View := { view with lines := view.lines.settled }

namespace Blueprint
variable {η κ : Type}

/-- The policies agree apart from repetitions. Where they are allowed, the same problems are found
but for them. A description without repetitions is built into one and the same table under both
policies. And what is built where they are allowed has the limits, names, entry handlers and
transitions of what the settled description is built into where they are not. The two have the same
sessions with all handlers that make no difference between a superseded transition and the source line
in its place. -/
theorem policies_agree (b : Blueprint κ) (ds : Description η) (width : CellWidth) :
    ds.problems ⟨width, .lastWins⟩ =
        (ds.problems ⟨width, .reject⟩).filter (!·.isRepeated) ∧
      (∀ t notices, (b.withSettings ⟨width, .reject⟩).build ds = (.ok t, notices) →
        (b.withSettings ⟨width, .lastWins⟩).build ds = (.ok t, notices)) ∧
      ∀ t, ((b.withSettings ⟨width, .lastWins⟩).build ds).1 = .ok t →
        ∃ t', (b.withSettings ⟨width, .reject⟩).build ds.settled =
            (.ok t', [.built b.name t.extent]) ∧ t.Agrees View.settled t' := by
  refine ⟨?_, ?_, ?_⟩
  · rw [Description.problems_eq_violations, Description.problems_eq_violations,
      Description.filter_not_repeated]
  · intro t notices h
    obtain ⟨hlawful, -, -, -⟩ := represents_of_build (congrArg Prod.fst h)
    have hrelaxed : ds.Lawful ⟨width, .lastWins⟩ := Description.Lawful.relax hlawful
    have hcheck := Description.check_eq_ok_iff.mpr ⟨hlawful, rfl⟩
    have hcheck' := Description.check_eq_ok_iff.mpr ⟨hrelaxed, rfl⟩
    have hfill : (b.withSettings ⟨width, .lastWins⟩).fill ds ds.extent =
        (b.withSettings ⟨width, .reject⟩).fill ds ds.extent := rfl
    rw [build, hcheck] at h
    rw [build]
    simp only [withSettings, hcheck'] at h hfill ⊢
    rw [hfill]
    exact h
  · intro t h
    obtain ⟨hlawful, -, -, -⟩ := represents_of_build h
    have hsettled : ds.settled.Lawful (b.withSettings ⟨width, .reject⟩).settings := hlawful.settled
    obtain ⟨t', hbuild⟩ := build_of_lawful hsettled
    have k := Description.alike_settled hlawful.context
    have hrule : ∀ s e, ds.rule? s e = ds.settled.rule? s e :=
      fun s e => (Description.rule?_settled hlawful.context s e).symm
    have hlines : ds.bare.settled = ds.settled.bare.settled := by
      simp only [Description.bare, Description.settled_map, Description.settled_settled]
    have hagrees : t.Agrees View.settled t' :=
      agrees_of_build h (congrArg Prod.fst hbuild) rfl k hrule ds.length_active_settled.symm
        (view_equip (b := b.withSettings ⟨width, .reject⟩) k hrule hlines)
    refine ⟨t', ?_, hagrees⟩
    rw [hbuild, hagrees.extent, (measures_of_build (congrArg Prod.fst hbuild)).2.1]
    rfl

/-- The first transition of the turnstile from state 1 on event 1 is settled. What is left has no
repetition, so its table is the same under both policies. -/
theorem turnstile_policies : ∃ (t t' : Table Unit Unit) (notices : List Notice),
    (build ⟨"turnstile", ⟨.narrow, .lastWins⟩, none⟩ turnstile).1 = .ok t ∧
      build ⟨"turnstile", ⟨.narrow, .reject⟩, none⟩ turnstile.settled = (.ok t', notices) ∧
      build ⟨"turnstile", ⟨.narrow, .lastWins⟩, none⟩ turnstile.settled = (.ok t', notices) ∧
      t'.lookup ⟨1⟩ ⟨1⟩ = .ok (some ⟨⟨1⟩, ⟨1⟩, ⟨2⟩, true, 7⟩) := by
  obtain ⟨t, hbuilt, k, -⟩ := turnstile_built (none : Option Unit)
  let b : Blueprint Unit := ⟨"turnstile", {}, none⟩
  obtain ⟨t', hsettled, hagrees⟩ := (policies_agree b turnstile .narrow).2.2 t hbuilt
  have hsame := (policies_agree b turnstile.settled .narrow).2.1 t' _ hsettled
  refine ⟨t, t', _, hbuilt, hsettled, hsame, ?_⟩
  rw [← hagrees.lookup, k.lookup_eq (by rw [k.stateLimit]; decide) (by rw [k.eventLimit]; decide)]
  rfl

/-- The override of the turnstile counts the transitions in the lines that the table keeps, and
settling leaves one less. -/
theorem turnstile_shows_settling : ∃ t t' : Table Unit Unit,
    (build ⟨"turnstile", ⟨.narrow, .lastWins⟩, none⟩ turnstile).1 = .ok t ∧
      (build ⟨"turnstile", ⟨.narrow, .reject⟩, none⟩ turnstile.settled).1 = .ok t' ∧
      let asking : Unit → Handler Nat Unit := fun _ view _ =>
        .setContext (view.lines.countP fun d => d.kind = "next") (.done ())
      let holdings : Holdings Nat := ⟨fun _ => ⟨1⟩, fun _ => 0⟩
      let acts : List (Act Nat Unit) := [.perform 0 0 (.call (.step ⟨1⟩))]
      ((t.equip asking none).responses 0 holdings acts).map (·.holdings.contexts 0) = [3] ∧
        ((t'.equip asking none).responses 0 holdings acts).map (·.holdings.contexts 0) = [2] := by
  obtain ⟨t, hbuilt, -⟩ := turnstile_built (none : Option Unit)
  have hcheck : turnstile.settled.check ⟨.narrow, .reject⟩ = .ok ⟨3, 3, 8⟩ := by decide
  obtain ⟨t', hbuild, -⟩ := build_ok
    (b := (⟨"turnstile", ⟨.narrow, .reject⟩, none⟩ : Blueprint Unit)) hcheck
  have hbuilt' := congrArg Prod.fst hbuild
  refine ⟨t, t', hbuilt, hbuilt', ?_, ?_⟩
  · exact (contexts_step hbuilt _ _ 0 _ 0 0 ⟨1⟩).trans (by decide)
  · exact (contexts_step hbuilt' _ _ 0 _ 0 0 ⟨1⟩).trans (by decide)

end Blueprint
end StateMachine

import StateMachine.Proofs.Rendering
import StateMachine.Settings.Json
import StateMachine.Table.Summary

namespace StateMachine

namespace Json
variable {α : Type}

def bool? : Json → Option Bool
  | .bool b => some b
  | _ => none

def string? : Json → Option String
  | .string s => s
  | _ => none

def list? (read : Json → Option α) : Json → Option (List α)
  | .array items => items.mapM read
  | _ => none

/-- The value of a key that is given once. -/
def field? (key : String) (read : Json → Option α) : Json → Option α
  | .object members =>
    match values members key with
    | [v] => read v
    | _ => none
  | _ => none

section
variable {key other : String} {v : Json} {rest : List (String × Json)} {read : Json → Option α}

@[simp] theorem field?_cons_self (h : key ∉ rest.map Prod.fst) :
    (ofFields ((key, v) :: rest)).field? key read = read v := by
  have hrest : rest.filter (·.1 == key) = [] := by
    rw [List.filter_eq_nil_iff]
    intro field hfield hkey
    exact h (List.mem_map.mpr ⟨field, hfield, beq_iff_eq.mp hkey⟩)
  simp [ofFields, field?, values, List.filter_map, Function.comp_def, hrest]

@[simp] theorem field?_cons_ne (h : other ≠ key) :
    (ofFields ((other, v) :: rest)).field? key read = (ofFields rest).field? key read := by
  simp [ofFields, field?, values, h]

end

@[simp] theorem bool?_bool (b : Bool) : (bool b).bool? = some b := rfl

@[simp] theorem string?_ofString (s : String) : (ofString s).string? = some s := rfl

theorem list?_map {write : α → Json} {read : Json → Option α}
    (h : ∀ x, read (write x) = some x) (xs : List α) :
    (array (xs.map write)).list? read = some xs := by
  induction xs with
  | nil => rfl
  | cons x xs ih =>
    rw [list?] at ih
    simp [list?, h, ih]

end Json

@[simp] theorem Number.ofJson?_ofNat {space : Space} (n : Number space) :
    ofJson? (.ofNat n.index) = some n := by
  rw [ofJson?, Json.natural?_ofNat, Option.bind_some, if_pos n.index_lt, ofNat_index]

@[simp] theorem CellWidth.ofJson?_ofString (width : CellWidth) :
    ofJson? (.ofString width.name) = some width := by
  cases width <;> decide

namespace Transition

def ofJson? (j : Json) : Option Transition := do
  let source ← j.field? "from" Number.ofJson?
  let event ← j.field? "event" Number.ofJson?
  let target ← j.field? "next" Number.ofJson?
  let overridden ← j.field? "overridden" Json.bool?
  let position ← j.field? "position" Json.natural?
  return { source, event, target, overridden, position }

theorem ofJson?_toJson (x : Transition) : ofJson? x.toJson = some x := by
  simp [ofJson?, toJson, Json.natural?_ofNat]

theorem spelled_toJson (x : Transition) : x.toJson.Spelled x.toJson.chars := by
  apply Json.spelled_ofFields
  simp [Json.spelled_ofNat, Json.spelled_bool]

end Transition

namespace Summary

def ofJson? (j : Json) : Option Summary := do
  let name ← j.field? "name" Json.string?
  let stateLimit ← j.field? "state_limit" Json.natural?
  let eventLimit ← j.field? "event_limit" Json.natural?
  let cellWidth ← j.field? "index_width" CellWidth.ofJson?
  let states ← j.field? "states" (Json.list? Json.string?)
  let events ← j.field? "events" (Json.list? Json.string?)
  let entryHandlers ← j.field? "entry_handlers" (Json.list? Number.ofJson?)
  let transitions ← j.field? "transitions" (Json.list? Transition.ofJson?)
  return { name, stateLimit, eventLimit, cellWidth, states, events, entryHandlers, transitions }

def parse? (text : String) : Option Summary := (Json.parse? text).bind ofJson?

theorem ofJson?_toJson (s : Summary) : ofJson? s.toJson = some s := by
  have hnames := Json.list?_map Json.string?_ofString
  have hentries := Json.list?_map (@Number.ofJson?_ofNat .state)
  have htransitions := Json.list?_map Transition.ofJson?_toJson
  simp [ofJson?, toJson, Json.natural?_ofNat, hnames, hentries, htransitions]

theorem spelled_toJson (s : Summary) : s.toJson.Spelled s.toJson.chars := by
  apply Json.spelled_ofFields
  simp [Json.spelled_ofNat, Json.spelled_ofString, Json.spelled_array, Transition.spelled_toJson]

theorem parse?_render (s : Summary) : parse? s.toJson.render = some s := by
  rw [parse?, Json.parse?_render s.spelled_toJson, Option.bind_some, ofJson?_toJson]

/-- Whatever the names are, the text is read back as the snapshot, so no other snapshot has it. -/
theorem text_exact : (∀ s : Summary, parse? s.toJson.render = some s) ∧
    ∀ s s' : Summary, s.toJson.render = s'.toJson.render ↔ s = s' := by
  refine ⟨parse?_render, fun s s' => ⟨fun h => ?_, fun h => h ▸ rfl⟩⟩
  have hread := parse?_render s
  rw [h, parse?_render] at hread
  exact (Option.some.inj hread).symm

end Summary
end StateMachine

import StateMachine.Proofs.Endings
import StateMachine.Proofs.Rendering
import StateMachine.Settings.Json

namespace StateMachine

namespace Json
variable {α : Type} {members : List (Option String × Json)} {key : String} {v : Json}

/-- An alternative is named by a string, or by an object whose only key is the name and whose value
is null. -/
def Names (v : Json) (name : String) : Prop :=
  v = .string (some name) ∨ v = .object [(some name, .null)]

/-- How many members have a key. -/
def occurrences (members : List (Option String × Json)) (key : String) : Nat :=
  (members.map Prod.fst).count (some key)

/-- What the members choose under a key: the default if none has the key, and if one has it, what its
value names. -/
def Chosen (name : α → String) (default : α) (members : List (Option String × Json))
    (key : String) (a : α) : Prop :=
  occurrences members key = 0 ∧ a = default ∨
    occurrences members key = 1 ∧ ∃ v, (some key, v) ∈ members ∧ v.Names (name a)

/-- A key that is repeated, or has a value that names no alternative. -/
def Spoilt (name : α → String) (members : List (Option String × Json)) (key : String) : Prop :=
  2 ≤ occurrences members key ∨ ∃ v, (some key, v) ∈ members ∧ ∀ a, ¬ v.Names (name a)

theorem alternative?_eq_some_iff {name : String} : v.alternative? = some name ↔ v.Names name := by
  constructor
  · intro h
    unfold alternative? at h
    split at h
    · exact .inl (congrArg Json.string h)
    · exact .inr (by rw [h])
    · cases h
  · rintro (rfl | rfl) <;> rfl

/-- Where each alternative is found by its name, a value denotes the alternative that it names. -/
theorem alternative?_bind_find?_eq_some_iff {all : List α} {name : α → String} {a : α}
    (h : all.find? (name · == name a) = some a) :
    (v.alternative?.bind fun text => all.find? (name · == text)) = some a ↔ v.Names (name a) := by
  rw [← alternative?_eq_some_iff, Option.bind_eq_some_iff]
  constructor
  · rintro ⟨text, htext, hfind⟩
    have hname := List.find?_some hfind
    rwa [beq_iff_eq.mp hname]
  · exact fun htext => ⟨_, htext, h⟩

theorem mem_values : v ∈ values members key ↔ (some key, v) ∈ members := by
  rw [values, List.mem_map]
  constructor
  · rintro ⟨⟨k, v⟩, hmem, rfl⟩
    obtain ⟨hmem, hkey⟩ := List.mem_filter.mp hmem
    rwa [← beq_iff_eq.mp hkey]
  · exact fun hmem => ⟨(some key, v), List.mem_filter.mpr ⟨hmem, beq_self_eq_true _⟩, rfl⟩

theorem length_values (members : List (Option String × Json)) (key : String) :
    (values members key).length = occurrences members key := by
  rw [values, List.length_map, ← List.countP_eq_length_filter, occurrences, List.count,
    List.countP_map]
  rfl

theorem keysDenote_iff : keysDenote members = true ↔ ∀ member ∈ members, member.1 ≠ none := by
  simp [keysDenote, Option.isSome_iff_ne_none]

end Json

theorem CellWidth.ofJson?_eq_some_iff (v : Json) (width : CellWidth) :
    ofJson? v = some width ↔ v.Names width.name :=
  Json.alternative?_bind_find?_eq_some_iff (by cases width <;> rfl)

theorem RepeatPolicy.ofJson?_eq_some_iff (v : Json) (repeats : RepeatPolicy) :
    ofJson? v = some repeats ↔ v.Names repeats.name :=
  Json.alternative?_bind_find?_eq_some_iff (by cases repeats <;> rfl)

namespace Settings
open Json

section
variable {α : Type} {name : α → String} {read : Json → Option α} {default a : α}
  {members : List (Option String × Json)} {key : String}

theorem given?_eq_some_iff (hread : ∀ v a, read v = some a ↔ v.Names (name a)) :
    given? read default (values members key) = some a ↔ Chosen name default members key a := by
  rw [Chosen, ← length_values]
  simp only [← mem_values, ← hread]
  cases values members key with
  | nil => simp [given?, eq_comm]
  | cons v rest => cases rest <;> simp [given?]

theorem given?_eq_none_iff (hread : ∀ v a, read v = some a ↔ v.Names (name a)) :
    given? read default (values members key) = none ↔ Spoilt name members key := by
  rw [Spoilt, ← length_values]
  simp only [← mem_values, ← hread]
  cases values members key with
  | nil => simp [given?]
  | cons v rest => cases rest <;> simp [given?, Option.eq_none_iff_forall_ne_some]

end

/-- The settings that the members of an object choose. Every key has to denote a text, and the two
known keys have to be clear. -/
structure Chooses (members : List (Option String × Json)) (settings : Settings) : Prop where
  denote : ∀ member ∈ members, member.1 ≠ none
  width : Chosen CellWidth.name ({} : Settings).width members "index_width" settings.width
  repeats : Chosen RepeatPolicy.name ({} : Settings).repeats members "duplicates" settings.repeats

section
variable {members : List (Option String × Json)} {settings : Settings}

theorem ofJson?_eq_some_iff :
    ofJson? (.object members) = some settings ↔ Chooses members settings := by
  rw [ofJson?, Option.ite_none_right_eq_some, keysDenote_iff]
  constructor
  · rintro ⟨hkeys, h⟩
    obtain ⟨width, hw, h⟩ := Option.bind_eq_some_iff.mp h
    obtain ⟨repeats, hr, h⟩ := Option.bind_eq_some_iff.mp h
    obtain rfl := Option.some.inj h
    exact ⟨hkeys, (given?_eq_some_iff CellWidth.ofJson?_eq_some_iff).mp hw,
      (given?_eq_some_iff RepeatPolicy.ofJson?_eq_some_iff).mp hr⟩
  · intro h
    have hwidth := (given?_eq_some_iff CellWidth.ofJson?_eq_some_iff).mpr h.width
    have hrepeats := (given?_eq_some_iff RepeatPolicy.ofJson?_eq_some_iff).mpr h.repeats
    refine ⟨h.denote, ?_⟩
    rw [hwidth, hrepeats]
    rfl

theorem ofJson?_eq_none_iff : ofJson? (.object members) = none ↔
    (∃ member ∈ members, member.1 = none) ∨ Spoilt CellWidth.name members "index_width" ∨
      Spoilt RepeatPolicy.name members "duplicates" := by
  have hwidth : given? CellWidth.ofJson? .narrow (values members "index_width") = none ↔
      Spoilt CellWidth.name members "index_width" :=
    given?_eq_none_iff CellWidth.ofJson?_eq_some_iff
  have hrepeats : given? RepeatPolicy.ofJson? .reject (values members "duplicates") = none ↔
      Spoilt RepeatPolicy.name members "duplicates" :=
    given?_eq_none_iff RepeatPolicy.ofJson?_eq_some_iff
  rw [← hwidth, ← hrepeats, ofJson?]
  by_cases hkeys : keysDenote members = true
  · rw [if_pos hkeys]
    have hdenote : ¬ ∃ member ∈ members, member.1 = none := by
      rintro ⟨member, hmem, hnone⟩
      exact keysDenote_iff.mp hkeys member hmem hnone
    rw [or_iff_right hdenote]
    cases given? CellWidth.ofJson? .narrow (values members "index_width") with
    | none => simp
    | some width =>
      cases given? RepeatPolicy.ofJson? .reject (values members "duplicates") <;> simp
  · rw [if_neg hkeys]
    simp only [keysDenote_iff, ne_eq, not_forall, not_not, exists_prop] at hkeys
    exact iff_of_true rfl (.inl hkeys)

end

/-- A text of an object is read as what its members choose, however it is spelled. It is refused if and
only if a key denotes no text or one of the two known keys is spoilt, and always with anything but
blanks after it. -/
theorem choices_exact {members : List (Option String × Json)} {text : String}
    (h : Padded (Json.object members).Spelled text.toList) :
    (∀ settings, parse? text = some settings ↔ Chooses members settings) ∧
      (parse? text = none ↔
        (∃ member ∈ members, member.1 = none) ∨ Spoilt CellWidth.name members "index_width" ∨
          Spoilt RepeatPolicy.name members "duplicates") ∧
      ∀ more : String, ¬ IsBlank more.toList → parse? (text ++ more) = none := by
  have hread := parse?_of_spelled h
  refine ⟨fun settings => ?_, ?_, fun more hmore => ?_⟩
  · rw [parse?, hread, Option.bind_some, ofJson?_eq_some_iff]
  · rw [parse?, hread, Option.bind_some, ofJson?_eq_none_iff]
  · rw [parse?, parse?_append_eq_none hread nofun hmore, Option.bind_none]

end Settings

/-- A foreign member has the name of a setting inside its value, and the name of the other setting is
written with an escape. -/
def profile : String :=
  "\x7b \"note\" : [\x7b\"index_width\":\"\x7d\\\"\"\x7d] ,\n" ++
    "\"\\u0064uplicates\":\x7b\"last_write_wins\":null\x7d \x7d"

def profileMembers : List (Option String × Json) :=
  [(some "note", .array [.ofFields [("index_width", .ofString "\x7d\"")]]),
    (some "duplicates", .ofFields [("last_write_wins", .null)])]

section
open Json

theorem spelled_duplicates : SpelledString (some "duplicates")
    ('"' :: '\\' :: 'u' :: '0' :: '0' :: '6' :: '4' ::
      ("uplicates".toList.flatMap escape ++ ['"'])) := by
  obtain ⟨pieces, hspelled, htext⟩ := exists_pieces "uplicates".toList
  have hunit : (Piece.unit 'd'.toNat).Spelled ['\\', 'u', '0', '0', '6', '4'] :=
    @Piece.Spelled.digits '0' '0' '6' '4' 0 0 6 4 rfl rfl rfl rfl
  refine ⟨.unit 'd'.toNat :: pieces, _, ⟨_, _, hunit, hspelled, rfl⟩, ?_, rfl⟩
  rw [Piece.Denotes.text?_cons (.inr rfl), htext]
  rfl

theorem profile_spelled : Padded (Json.object profileMembers).Spelled profile.toList := by
  have hspace : IsBlank [' '] := by simp [IsBlank, Lexer.isBlank]
  have hline : IsBlank ['\n'] := by simp [IsBlank, Lexer.isBlank]
  have hnote : (Json.array [.ofFields [("index_width", .ofString "\x7d\"")]]).Spelled
      (Json.array [.ofFields [("index_width", .ofString "\x7d\"")]]).chars := by
    apply spelled_array
    simp [spelled_ofFields, spelled_ofString]
  have hlast : (Json.ofFields [("last_write_wins", .null)]).Spelled
      (Json.ofFields [("last_write_wins", .null)]).chars := by
    apply spelled_ofFields
    simp [Spelled, chars]
  refine .of ?_
  simp only [profileMembers, Spelled, SpelledAfterMember]
  refine ⟨_, _, ⟨_, _, ⟨[' '], _, [' '], hspace, spelled_quote "note", hspace, rfl⟩,
      ⟨[' '], _, [' '], hspace, hnote, hspace, rfl⟩, rfl⟩,
    ⟨_, _, ⟨_, _, ⟨['\n'], _, [], hline, spelled_duplicates, isBlank_nil, rfl⟩,
      ⟨[], _, [' '], isBlank_nil, hlast, hspace, rfl⟩, rfl⟩, rfl, rfl⟩, ?_⟩
  decide

theorem profile_choices : Padded (Json.object profileMembers).Spelled profile.toList ∧
    Settings.parse? profile = some ⟨.narrow, .lastWins⟩ ∧
    Settings.parse? (profile ++ " \x7d") = none := by
  obtain ⟨hchoices, -, hmore⟩ := Settings.choices_exact profile_spelled
  have hchosen : Settings.Chooses profileMembers ⟨.narrow, .lastWins⟩ := by
    refine ⟨?_, .inl ⟨rfl, rfl⟩, .inr ⟨rfl, .ofFields [("last_write_wins", .null)], ?_, .inr rfl⟩⟩
    · simp [profileMembers]
    · simp [profileMembers]
  refine ⟨profile_spelled, (hchoices _).mpr hchosen, hmore _ ?_⟩
  simp [IsBlank, Lexer.isBlank]

end
end StateMachine

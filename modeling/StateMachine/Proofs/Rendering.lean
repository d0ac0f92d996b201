import StateMachine.Number.Json
import StateMachine.Proofs.Spelling

namespace StateMachine.Json

variable {c : Char} {text : List Char} {v : Json}

theorem Padded.of {p : List Char → Prop} (h : p text) : Padded p text :=
  ⟨[], text, [], isBlank_nil, h, isBlank_nil, (List.append_nil text).symm⟩

theorem hexValue?_digitChar : ∀ n < 16, Lexer.hexValue? n.digitChar = some n := by decide

/-- A part of a string that stands for one character. -/
def Piece.Denotes (piece : Piece) (c : Char) : Prop := piece = .char c ∨ piece = .unit c.toNat

theorem Piece.Denotes.text?_cons {piece : Piece} (h : piece.Denotes c) (known : List Char)
    (rest : List Piece) : text? known (piece :: rest) = text? (c :: known) rest := by
  rcases h with rfl | rfl
  · rfl
  · have hplain : isHigh c.toNat = false ∧ isLow c.toNat = false := by
      have hvalid : c.toNat.isValidChar := c.valid
      simp only [isHigh, isLow, Bool.and_eq_false_iff, decide_eq_false_iff_not]
      unfold Nat.isValidChar at hvalid
      omega
    cases rest with
    | nil => simp [text?, hplain]
    | cons next rest => cases next <;> simp [text?, hplain]

/-- Each character is written as a part that stands for it. -/
theorem exists_piece (c : Char) : ∃ piece : Piece, piece.Spelled (escape c) ∧ piece.Denotes c := by
  unfold escape
  split
  case h_8 =>
    split
    case isTrue hcontrol =>
      refine ⟨_, .digits (hexValue?_digitChar 0 (by decide)) (hexValue?_digitChar 0 (by decide))
        (hexValue?_digitChar (c.toNat / 16) (by omega))
        (hexValue?_digitChar (c.toNat % 16) (by omega)), .inr (congrArg _ ?_)⟩
      omega
    case isFalse hplain => exact ⟨_, .plain ‹_› ‹_› (Nat.not_lt.mp hplain), .inl rfl⟩
  all_goals exact ⟨_, .letter rfl, .inl rfl⟩

theorem exists_pieces (text : List Char) : ∃ pieces, SpelledPieces pieces (text.flatMap escape) ∧
    ∀ known, text? known pieces = some (String.ofList (known.reverse ++ text)) := by
  induction text with
  | nil => exact ⟨[], rfl, fun known => by rw [text?, List.append_nil]⟩
  | cons c text ih =>
    obtain ⟨pieces, hspelled, htext⟩ := ih
    obtain ⟨piece, hpiece, hc⟩ := exists_piece c
    refine ⟨piece :: pieces, ⟨escape c, _, hpiece, hspelled, List.flatMap_cons⟩, fun known => ?_⟩
    rw [hc.text?_cons, htext, List.reverse_cons, List.append_assoc]
    rfl

theorem spelled_quote (s : String) : SpelledString (some s) (quote s) := by
  obtain ⟨pieces, hspelled, htext⟩ := exists_pieces s.toList
  refine ⟨pieces, _, hspelled, ?_, rfl⟩
  rw [htext, List.reverse_nil, List.nil_append, String.ofList_toList]

example : quote "a\",\"b" = "\"a\\\",\\\"b\"".toList := by decide

theorem isDigit_toDigits (n : Nat) : ∀ c ∈ Nat.toDigits 10 n, c.isDigit = true := fun _ hc =>
  Nat.isDigit_of_mem_toDigits (by decide) (by decide) hc

theorem head_toDigits {n : Nat} (hn : n ≠ 0) : (Nat.toDigits 10 n).head? ≠ some '0' := by
  induction n using Nat.strongRecOn with
  | ind n ih =>
    rw [Nat.toDigits_eq_if (by decide)]
    split
    case isTrue hlt => simp [hn]
    case isFalse hge =>
      have hhead := ih (n / 10) (by omega) (by omega)
      cases hdigits : Nat.toDigits 10 (n / 10) with
      | nil => exact absurd hdigits (List.ne_nil_of_length_pos Nat.length_toDigits_pos)
      | cons c rest => rwa [hdigits] at hhead

theorem isNumber_toDigits (n : Nat) : IsNumber (Nat.toDigits 10 n) := by
  have hwhole : IsWhole (Nat.toDigits 10 n) := by
    rcases Nat.eq_zero_or_pos n with rfl | hn
    · exact .inl rfl
    · exact .inr ⟨⟨List.ne_nil_of_length_pos Nat.length_toDigits_pos, isDigit_toDigits n⟩,
        head_toDigits (Nat.ne_of_gt hn)⟩
  exact ⟨[], _, [], [], .inl rfl, hwhole, .inl rfl, .inl rfl, by simp⟩

theorem toList_toString (n : Nat) : (toString n).toList = Nat.toDigits 10 n := by
  rw [Nat.toString_eq_ofList_toDigits, String.toList_ofList]

/-- Digits denote the number that they were written for. -/
theorem natural?_ofNat (n : Nat) : (ofNat n).natural? = some n := by
  have hdigits : (Nat.toDigits 10 n).all Char.isDigit = true :=
    List.all_eq_true.mpr (isDigit_toDigits n)
  have hvalue : Nat.ofDigitChars 10 (Nat.toDigits 10 n) 0 = n := Nat.ofDigitChars_ten_toDigits
  rw [ofNat, natural?, toList_toString, if_pos hdigits]
  simpa [Nat.ofDigitChars, Nat.mul_comm] using hvalue

section
variable {items : List Json} {fields : List (String × Json)}

theorem spelled_bool (b : Bool) : (bool b).Spelled (bool b).chars := by
  cases b <;> simp only [Spelled, chars]

theorem spelled_ofNat (n : Nat) : (ofNat n).Spelled (ofNat n).chars := by
  simp only [ofNat, Spelled, chars, toList_toString]
  exact ⟨trivial, isNumber_toDigits n⟩

theorem spelled_ofString (s : String) : (ofString s).Spelled (ofString s).chars := by
  simp only [ofString, Spelled, chars]
  exact spelled_quote s

theorem spelled_afterItem (h : ∀ v ∈ items, v.Spelled v.chars) :
    SpelledAfterItem items (charsAfterItem items) := by
  induction items with
  | nil => simp only [SpelledAfterItem, charsAfterItem]
  | cons v rest ih =>
    simp only [SpelledAfterItem, charsAfterItem]
    exact ⟨v.chars, _, .of (h v (by simp)), ih fun v hv => h v (by simp [hv]), rfl⟩

theorem spelled_array (h : ∀ v ∈ items, v.Spelled v.chars) :
    (array items).Spelled (array items).chars := by
  cases items with
  | nil =>
    simp only [Spelled, chars]
    exact ⟨[], isBlank_nil, rfl⟩
  | cons v rest =>
    simp only [Spelled, chars]
    exact ⟨v.chars, _, .of (h v (by simp)), spelled_afterItem fun v hv => h v (by simp [hv]), rfl⟩

theorem spelled_member (key : String) (h : v.Spelled v.chars) :
    SpelledMember (some key) v.Spelled (quote key ++ ':' :: v.chars) :=
  ⟨_, _, .of (spelled_quote key), .of h, rfl⟩

theorem spelled_afterMember (h : ∀ field ∈ fields, field.2.Spelled field.2.chars) :
    SpelledAfterMember (fields.map fun (key, value) => (some key, value))
      (charsAfterMember (fields.map fun (key, value) => (some key, value))) := by
  induction fields with
  | nil => simp only [List.map_nil, SpelledAfterMember, charsAfterMember]
  | cons field rest ih =>
    simp only [List.map_cons, SpelledAfterMember, charsAfterMember]
    exact ⟨_, _, spelled_member field.1 (h field (by simp)),
      ih fun field hfield => h field (by simp [hfield]), by simp⟩

theorem spelled_ofFields (h : ∀ field ∈ fields, field.2.Spelled field.2.chars) :
    (ofFields fields).Spelled (ofFields fields).chars := by
  cases fields with
  | nil =>
    simp only [ofFields, List.map_nil, Spelled, chars]
    exact ⟨[], isBlank_nil, rfl⟩
  | cons field rest =>
    simp only [ofFields, List.map_cons, Spelled, chars]
    exact ⟨_, _, spelled_member field.1 (h field (by simp)),
      spelled_afterMember fun field hfield => h field (by simp [hfield]), by simp⟩

end

theorem parse?_render (h : v.Spelled v.chars) : parse? v.render = some v := by
  apply parse?_of_spelled
  rw [render, String.toList_ofList]
  exact .of h

end StateMachine.Json

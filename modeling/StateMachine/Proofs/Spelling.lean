import StateMachine.Json.Grammar
import StateMachine.Proofs.Tokens

namespace StateMachine.Json

/-- The character of a token that is written in one way only. -/
def Token.mark? : Token → Option Char
  | .openObject => some '\x7b'
  | .closeObject => some '\x7d'
  | .openArray => some '['
  | .closeArray => some ']'
  | .colon => some ':'
  | .comma => some ','
  | _ => none

namespace Phase
variable {phase : Phase} {c : Char} {digits text : List Char}

theorem foldlM_digits (hphase : ∀ c, c.isDigit = true → phase.next? c = some phase)
    (hdigits : ∀ c ∈ digits, c.isDigit = true) : digits.foldlM next? phase = some phase := by
  induction digits with
  | nil => rfl
  | cons c digits ih =>
    rw [foldlM_cons_of_some (hphase c (hdigits c (by simp)))]
    exact ih fun c hc => hdigits c (by simp [hc])

/-- Where a first digit leads, more of them stay. -/
theorem foldlM_isDigits {start : Phase}
    (hstart : ∀ c, c.isDigit = true → start.next? c = some phase)
    (hphase : ∀ c, c.isDigit = true → phase.next? c = some phase) (h : IsDigits digits) :
    digits.foldlM next? start = some phase := by
  obtain ⟨hne, hdigits⟩ := h
  cases digits with
  | nil => exact absurd rfl hne
  | cons c digits =>
    rw [foldlM_cons_of_some (hstart c (hdigits c (by simp)))]
    exact foldlM_digits hphase fun c hc => hdigits c (by simp [hc])

theorem foldlM_isWhole (h : IsWhole text) :
    ∃ phase, text.foldlM next? sign = some phase ∧ (phase = zero ∨ phase = whole) := by
  rcases h with rfl | ⟨⟨hne, hdigits⟩, hzero⟩
  · exact ⟨zero, rfl, .inl rfl⟩
  · refine ⟨whole, ?_, .inr rfl⟩
    cases text with
    | nil => exact absurd rfl hne
    | cons c digits =>
      have hc : sign.next? c = some whole := by
        have hc₀ : c ≠ '0' := fun hc₀ => hzero (congrArg some hc₀)
        simp [next?, hc₀, hdigits c (by simp)]
      rw [foldlM_cons_of_some hc]
      exact foldlM_digits (fun c hc => by simp [next?, hc]) fun c hc => hdigits c (by simp [hc])

theorem foldlM_isFraction (hphase : phase = zero ∨ phase = whole) (h : IsFraction text) :
    ∃ phase', text.foldlM next? phase = some phase' ∧
      (phase' = zero ∨ phase' = whole ∨ phase' = fraction) := by
  rcases h with rfl | ⟨digits, hdigits, rfl⟩
  · exact ⟨phase, rfl, hphase.imp_right .inl⟩
  · have hpoint : phase.next? '.' = some point := by rcases hphase with rfl | rfl <;> rfl
    refine ⟨fraction, ?_, .inr (.inr rfl)⟩
    rw [foldlM_cons_of_some hpoint]
    exact foldlM_isDigits (fun c hc => by simp [next?, hc]) (fun c hc => by simp [next?, hc]) hdigits

theorem foldlM_isPower (hphase : phase = zero ∨ phase = whole ∨ phase = fraction)
    (h : IsPower text) :
    ∃ phase', text.foldlM next? phase = some phase' ∧ phase'.isComplete = true := by
  rcases h with rfl | ⟨letter, sign, digits, hletter, hsign, hdigits, rfl⟩
  · exact ⟨phase, rfl, by rcases hphase with rfl | rfl | rfl <;> rfl⟩
  · have hexponent : phase.next? letter = some exponent := by
      rcases hphase with rfl | rfl | rfl <;> rcases hletter with rfl | rfl <;> rfl
    have hpower : ∀ c, c.isDigit = true → power.next? c = some power := fun c hc => by
      simp [next?, hc]
    refine ⟨power, ?_, rfl⟩
    rw [foldlM_cons_of_some hexponent]
    rcases hsign with rfl | hsign
    · refine foldlM_isDigits (fun c hc => ?_) hpower hdigits
      have hplus : c ≠ '+' := by rintro rfl; cases hc
      have hminus : c ≠ '-' := by rintro rfl; cases hc
      simp [next?, hplus, hminus, hc]
    · have hsigned : sign.foldlM next? exponent = some exponentSign := by
        rcases hsign with rfl | rfl <;> rfl
      rw [foldlM_append_of_some hsigned]
      exact foldlM_isDigits (fun c hc => by simp [next?, hc]) hpower hdigits

/-- A number without its sign leads to a complete literal. -/
theorem foldlM_unsigned {whole fraction power : List Char} (hwhole : IsWhole whole)
    (hfraction : IsFraction fraction) (hpower : IsPower power) :
    ∃ phase, (whole ++ (fraction ++ power)).foldlM next? sign = some phase ∧
      phase.isComplete = true := by
  obtain ⟨phase, hread, hphase⟩ := foldlM_isWhole hwhole
  obtain ⟨phase', hread', hphase'⟩ := foldlM_isFraction hphase hfraction
  rw [foldlM_append_of_some hread, foldlM_append_of_some hread']
  exact foldlM_isPower hphase' hpower

end Phase

theorem isBlank_nil : IsBlank [] := fun _ h => absurd h List.not_mem_nil

theorem IsWhole.head {whole : List Char} (h : IsWhole whole) :
    ∃ c rest, whole = c :: rest ∧ c.isDigit = true := by
  rcases h with rfl | ⟨⟨hne, hdigits⟩, -⟩
  · exact ⟨'0', [], rfl, rfl⟩
  · cases whole with
    | nil => exact absurd rfl hne
    | cons c rest => exact ⟨c, rest, rfl, hdigits c (by simp)⟩

namespace Lexer
variable {lexer : Lexer} {read tokens added : List Token} {text more : List Char} {c : Char}

theorem isBlank_iff : isBlank c = true ↔ c = ' ' ∨ c = '\n' ∨ c = '\t' ∨ c = '\r' := by
  simp [isBlank, or_assoc]

theorem start_blank (hc : isBlank c = true) : lexer.start c = some lexer := by
  rcases isBlank_iff.mp hc with rfl | rfl | rfl | rfl <;> rfl

theorem start_digit (lexer : Lexer) (hc : c.isDigit = true) : lexer.start c =
    (Phase.sign.next? c).map fun phase => { lexer with mode := .number phase [c] } := by
  have hblank : isBlank c = false := by
    rw [Bool.eq_false_iff]
    intro hblank
    rcases isBlank_iff.mp hblank with rfl | rfl | rfl | rfl <;> cases hc
  unfold start
  split
  case h_12 => rw [hblank, if_neg Bool.false_ne_true]
  all_goals cases hc

/-- A literal grows as far as its phase allows. -/
theorem foldlM_number {phase phase' : Phase} {literal : List Char}
    (h : text.foldlM Phase.next? phase = some phase') :
    text.foldlM push ⟨read, .number phase literal⟩ =
      some ⟨read, .number phase' (text.reverse ++ literal)⟩ := by
  induction text generalizing phase literal with
  | nil =>
    obtain rfl := Option.some.inj h
    rfl
  | cons c text ih =>
    rw [List.foldlM_cons] at h
    obtain ⟨next, hnext, hrest⟩ := Option.bind_eq_some_iff.mp h
    have hpush : push ⟨read, .number phase literal⟩ c =
        some ⟨read, .number next (c :: literal)⟩ := by
      simp only [push, hnext]
    rw [foldlM_cons_of_some hpush, ih hrest, List.reverse_cons, List.append_assoc]
    rfl

theorem foldlM_piece {piece : Piece} {pieces : List Piece} (h : piece.Spelled text) :
    text.foldlM push ⟨read, .string pieces⟩ = some ⟨read, .string (piece :: pieces)⟩ := by
  cases h with
  | plain hquote hbackslash hcontrol =>
    rw [foldlM_singleton]
    simp [push, hquote, hbackslash, Nat.not_lt.mpr hcontrol]
  | @letter c name h =>
    have hname : name ≠ 'u' := by rintro rfl; cases h
    simp [push, hname, h]
  | digits h₁ h₂ h₃ h₄ => simp [push, h₁, h₂, h₃, h₄]

theorem foldlM_pieces {pieces known : List Piece} (h : SpelledPieces pieces text) :
    text.foldlM push ⟨read, .string known⟩ =
      some ⟨read, .string (pieces.reverse ++ known)⟩ := by
  induction pieces generalizing text known with
  | nil =>
    obtain rfl := h
    rfl
  | cons piece pieces ih =>
    obtain ⟨head, tail, hhead, htail, rfl⟩ := h
    rw [foldlM_append_of_some (foldlM_piece hhead), ih htail, List.reverse_cons,
      List.append_assoc]
    rfl

/-- Between tokens the text adds these tokens, and they may end after it. -/
def Starts (text : List Char) (tokens : List Token) : Prop :=
  ∀ read, ∃ lexer, text.foldlM push ⟨read.reverse, .between⟩ = some lexer ∧
    lexer.finish = some (read ++ tokens)

/-- So does the text wherever tokens may end, also right after a number. -/
def Follows (text : List Char) (tokens : List Token) : Prop :=
  ∀ lexer read, lexer.finish = some read →
    ∃ lexer', text.foldlM push lexer = some lexer' ∧ lexer'.finish = some (read ++ tokens)

/-- A character that belongs to no number ends the number before it. -/
theorem push_of_finish (hc : ∀ phase : Phase, phase.next? c = none)
    (h : lexer.finish = some read) : lexer.push c = start ⟨read.reverse, .between⟩ c := by
  obtain ⟨before, mode⟩ := lexer
  cases mode with
  | between =>
    obtain rfl := Option.some.inj h
    simp [push]
  | number phase literal =>
    obtain ⟨hcomplete, hread⟩ := Option.ite_none_right_eq_some.mp h
    obtain rfl := Option.some.inj hread
    simp [push, hc, hcomplete, emit]
  | _ => cases h

theorem next?_blank (hc : isBlank c = true) (phase : Phase) : phase.next? c = none := by
  rcases isBlank_iff.mp hc with rfl | rfl | rfl | rfl <;> cases phase <;> rfl

theorem foldlM_blank (h : IsBlank text) :
    text.foldlM push ⟨read, .between⟩ = some ⟨read, .between⟩ := by
  induction text with
  | nil => rfl
  | cons c text ih =>
    have hc : push ⟨read, .between⟩ c = some ⟨read, .between⟩ := start_blank (h c (by simp))
    rw [foldlM_cons_of_some hc]
    exact ih fun c hc => h c (by simp [hc])

theorem follows_blank (h : IsBlank text) : Follows text [] := by
  intro lexer read hread
  rw [List.append_nil]
  cases text with
  | nil => exact ⟨lexer, rfl, hread⟩
  | cons c text =>
    have hc : isBlank c = true := h c (by simp)
    have hpush : lexer.push c = some ⟨read.reverse, .between⟩ := by
      rw [push_of_finish (next?_blank hc) hread, start_blank hc]
    have hrest : IsBlank text := fun c hc => h c (by simp [hc])
    rw [foldlM_cons_of_some hpush, foldlM_blank hrest]
    exact ⟨_, rfl, by simp [finish]⟩

theorem Follows.starts (h : Follows text tokens) : Starts text tokens := fun read =>
  h ⟨read.reverse, .between⟩ read (by simp [finish])

theorem starts_nil : Starts [] [] := (follows_blank isBlank_nil).starts

theorem Starts.append (h : Starts text tokens) (hmore : Follows more added) :
    Starts (text ++ more) (tokens ++ added) := by
  intro read
  obtain ⟨lexer, htext, hread⟩ := h read
  rw [foldlM_append_of_some htext, ← List.append_assoc]
  exact hmore lexer _ hread

theorem Starts.padded {p : List Char → Prop} (h : ∀ inner, p inner → Starts inner tokens)
    (htext : Padded p text) : Starts text tokens := by
  obtain ⟨before, inner, after, hbefore, hinner, hafter, rfl⟩ := htext
  have hstarts := (h inner hinner).append (follows_blank hafter)
  rw [List.append_nil] at hstarts
  intro read
  rw [foldlM_append_of_some (foldlM_blank hbefore)]
  exact hstarts read

theorem start_mark {token : Token} (h : token.mark? = some c) (lexer : Lexer) :
    lexer.start c = some (lexer.emit token) := by
  cases token <;> cases h <;> rfl

theorem next?_mark {token : Token} (h : token.mark? = some c) (phase : Phase) :
    phase.next? c = none := by
  cases token <;> cases h <;> cases phase <;> rfl

/-- No number can swallow a mark. -/
theorem follows_mark {token : Token} (hc : token.mark? = some c) (h : Starts text tokens) :
    Follows (c :: text) (token :: tokens) := by
  intro lexer read hread
  have hpush : lexer.push c = some ⟨(read ++ [token]).reverse, .between⟩ := by
    rw [push_of_finish (next?_mark hc) hread, start_mark hc, List.reverse_append]
    rfl
  have hrest := h (read ++ [token])
  rwa [List.append_assoc, ← foldlM_cons_of_some hpush] at hrest

theorem starts_number (h : IsNumber text) : Starts text [.number (String.ofList text)] := by
  obtain ⟨sign, whole, fraction, power, hsign, hwhole, hfraction, hpower, rfl⟩ := h
  obtain ⟨phase, hphase, hcomplete⟩ := Phase.foldlM_unsigned hwhole hfraction hpower
  intro read
  have hfinish (literal : List Char) : finish ⟨read.reverse, .number phase literal⟩ =
      some (read ++ [.number (String.ofList literal.reverse)]) := by
    simp [finish, hcomplete, emit]
  rcases hsign with rfl | rfl
  · obtain ⟨c, rest, rfl, hc⟩ := hwhole.head
    rw [List.cons_append, List.foldlM_cons] at hphase
    obtain ⟨first, hfirst, hrest⟩ := Option.bind_eq_some_iff.mp hphase
    have hpush : push ⟨read.reverse, .between⟩ c = some ⟨read.reverse, .number first [c]⟩ := by
      have hstart := start_digit ⟨read.reverse, .between⟩ hc
      rwa [hfirst] at hstart
    rw [List.nil_append, List.cons_append, foldlM_cons_of_some hpush, foldlM_number hrest]
    exact ⟨_, rfl, by rw [hfinish]; simp⟩
  · have hpush : push ⟨read.reverse, .between⟩ '-' = some ⟨read.reverse, .number .sign ['-']⟩ := rfl
    rw [List.singleton_append, foldlM_cons_of_some hpush, foldlM_number hphase]
    exact ⟨_, rfl, by rw [hfinish]; simp⟩

theorem starts_string {s : Option String} (h : SpelledString s text) : Starts text [.string s] := by
  obtain ⟨pieces, inner, hinner, rfl, rfl⟩ := h
  intro read
  have hopen : push ⟨read.reverse, .between⟩ '"' = some ⟨read.reverse, .string []⟩ := rfl
  rw [foldlM_cons_of_some hopen, foldlM_append_of_some (foldlM_pieces hinner), foldlM_singleton]
  exact ⟨_, rfl, by simp [emit, finish]⟩

theorem starts_member {key : Option String} {p : List Char → Prop}
    (h : ∀ inner, p inner → Starts inner tokens) (htext : SpelledMember key p text) :
    Starts text (.string key :: .colon :: tokens) := by
  obtain ⟨name, inner, hname, hinner, rfl⟩ := htext
  exact (Starts.padded (fun _ => starts_string) hname).append
    (follows_mark rfl (Starts.padded h hinner))

mutual

/-- A value may be a number, so it starts between tokens. What comes after an item or a member
begins with a mark, so it may follow a number. -/
theorem starts_spelled (v : Json) (text : List Char) (h : v.Spelled text) :
    Starts text v.tokens := by
  match v with
  | .null | .bool true | .bool false =>
    simp only [Spelled] at h
    subst h
    exact fun read => ⟨_, rfl, by simp [finish, Json.tokens, emit]⟩
  | .number literal =>
    simp only [Spelled] at h
    obtain ⟨rfl, hnumber⟩ := h
    have hstarts := starts_number hnumber
    rwa [String.ofList_toList] at hstarts
  | .string s =>
    simp only [Spelled] at h
    exact starts_string h
  | .array [] =>
    simp only [Spelled] at h
    obtain ⟨inner, hinner, rfl⟩ := h
    have hclose : Follows [']'] [.closeArray] := follows_mark rfl starts_nil
    simp only [Json.tokens]
    exact (follows_mark rfl ((follows_blank hinner).starts.append hclose)).starts
  | .array (v :: rest) =>
    simp only [Spelled] at h
    obtain ⟨head, tail, hhead, htail, rfl⟩ := h
    have hv := Starts.padded (starts_spelled v) hhead
    simp only [Json.tokens]
    exact (follows_mark rfl (hv.append (follows_afterItem rest tail htail))).starts
  | .object [] =>
    simp only [Spelled] at h
    obtain ⟨inner, hinner, rfl⟩ := h
    have hclose : Follows ['\x7d'] [.closeObject] := follows_mark rfl starts_nil
    simp only [Json.tokens]
    exact (follows_mark rfl ((follows_blank hinner).starts.append hclose)).starts
  | .object ((key, v) :: rest) =>
    simp only [Spelled] at h
    obtain ⟨head, tail, hhead, htail, rfl⟩ := h
    have hv := starts_member (starts_spelled v) hhead
    simp only [Json.tokens]
    exact (follows_mark rfl (hv.append (follows_afterMember rest tail htail))).starts

theorem follows_afterItem (rest : List Json) (text : List Char) (h : SpelledAfterItem rest text) :
    Follows text (tokensAfterItem rest) := by
  match rest with
  | [] =>
    simp only [SpelledAfterItem] at h
    subst h
    exact follows_mark rfl starts_nil
  | v :: rest =>
    simp only [SpelledAfterItem] at h
    obtain ⟨head, tail, hhead, htail, rfl⟩ := h
    have hv := Starts.padded (starts_spelled v) hhead
    simp only [tokensAfterItem]
    exact follows_mark rfl (hv.append (follows_afterItem rest tail htail))

theorem follows_afterMember (rest : List (Option String × Json)) (text : List Char)
    (h : SpelledAfterMember rest text) : Follows text (tokensAfterMember rest) := by
  match rest with
  | [] =>
    simp only [SpelledAfterMember] at h
    subst h
    exact follows_mark rfl starts_nil
  | (key, v) :: rest =>
    simp only [SpelledAfterMember] at h
    obtain ⟨head, tail, hhead, htail, rfl⟩ := h
    have hv := starts_member (starts_spelled v) hhead
    simp only [tokensAfterMember]
    exact follows_mark rfl (hv.append (follows_afterMember rest tail htail))

end

end Lexer

theorem tokens?_of_spelled {v : Json} {s : String} (h : Padded v.Spelled s.toList) :
    tokens? s = some v.tokens := by
  obtain ⟨lexer, hread, hfinish⟩ := Lexer.Starts.padded (Lexer.starts_spelled v) h []
  rw [tokens?, Option.bind_eq_bind]
  exact (congrArg (Option.bind · Lexer.finish) hread).trans hfinish

/-- Every text of a value is read as that value, blanks around it included. -/
theorem parse?_of_spelled {v : Json} {s : String} (h : Padded v.Spelled s.toList) :
    parse? s = some v :=
  parse?_of_tokens (tokens?_of_spelled h)

end StateMachine.Json

import Mathlib.Data.List.Induction
import Mathlib.Tactic.SplitIfs
import StateMachine.Proofs.Spelling

namespace StateMachine.Json

namespace Lexer
variable {lexer : Lexer} {text : List Char} {c : Char}

/-- The same place in a text before which other tokens were read. -/
def onto (lexer : Lexer) (read : List Token) : Lexer :=
  { lexer with tokens := lexer.tokens ++ read }

theorem start_onto (lexer : Lexer) (read : List Token) (c : Char) :
    (lexer.onto read).start c = (lexer.start c).map (·.onto read) := by
  unfold start
  split
  case h_12 =>
    split
    · rfl
    · rw [Option.map_map]
      rfl
  all_goals rfl

/-- What a character does is independent of the tokens before it. -/
theorem push_onto (lexer : Lexer) (read : List Token) (c : Char) :
    (lexer.onto read).push c = (lexer.push c).map (·.onto read) := by
  obtain ⟨tokens, mode⟩ := lexer
  cases mode with
  | between => exact start_onto ⟨tokens, .between⟩ read c
  | word missing token =>
    cases missing with
    | nil => rfl
    | cons letter missing =>
      simp only [push, onto]
      split_ifs <;> rfl
  | number phase literal =>
    simp only [push, onto]
    cases phase.next? c with
    | some phase => rfl
    | none =>
      dsimp only
      split_ifs
      · exact start_onto (emit ⟨tokens, .number phase literal⟩ _) read c
      · rfl
  | string pieces =>
    simp only [push, onto]
    split_ifs <;> rfl
  | escape pieces =>
    simp only [push, onto]
    split_ifs
    · rfl
    · rw [Option.map_map]
      rfl
  | unit pieces missing value =>
    simp only [push, onto, Option.map_map]
    congr 1
    funext digit
    dsimp only [Function.comp_apply]
    split_ifs <;> rfl

theorem foldlM_onto (lexer : Lexer) (read : List Token) (text : List Char) :
    text.foldlM push (lexer.onto read) = (text.foldlM push lexer).map (·.onto read) := by
  induction text generalizing lexer with
  | nil => rfl
  | cons c text ih =>
    rw [List.foldlM_cons, List.foldlM_cons, push_onto]
    cases lexer.push c with
    | none => rfl
    | some next => exact ih next

theorem finish_onto (lexer : Lexer) (read : List Token) :
    (lexer.onto read).finish = lexer.finish.map (read.reverse ++ ·) := by
  obtain ⟨tokens, mode⟩ := lexer
  cases mode with
  | between => simp [finish, onto]
  | number phase literal =>
    simp only [finish, onto]
    split_ifs
    · simp [emit]
    · rfl
  | _ => rfl

theorem start_eq_start (h : lexer.start c = some {}) : lexer = {} ∧ isBlank c = true := by
  obtain ⟨tokens, mode⟩ := lexer
  unfold start at h
  split at h
  case h_12 =>
    split_ifs at h with hblank
    · exact ⟨Option.some.inj h, hblank⟩
    · obtain ⟨phase, -, hmode⟩ := Option.map_eq_some_iff.mp h
      cases hmode
  all_goals cases h

/-- Only a blank leads to where every text begins, and only from there. -/
theorem push_eq_start (h : lexer.push c = some {}) : lexer = {} ∧ isBlank c = true := by
  obtain ⟨tokens, mode⟩ := lexer
  cases mode with
  | between => exact start_eq_start h
  | word missing token =>
    cases missing with
    | nil => cases h
    | cons letter missing =>
      simp only [push] at h
      split_ifs at h <;> cases h
  | number phase literal =>
    simp only [push] at h
    cases hnext : phase.next? c with
    | some phase =>
      rw [hnext] at h
      cases h
    | none =>
      rw [hnext] at h
      dsimp only at h
      split_ifs at h
      cases (start_eq_start h).1
  | string pieces =>
    simp only [push] at h
    split_ifs at h <;> cases h
  | escape pieces =>
    simp only [push] at h
    split_ifs at h
    · cases h
    · obtain ⟨_, -, hmode⟩ := Option.map_eq_some_iff.mp h
      cases hmode
  | unit pieces missing value =>
    simp only [push] at h
    obtain ⟨_, -, hmode⟩ := Option.map_eq_some_iff.mp h
    split_ifs at hmode <;> cases hmode

theorem isBlank_of_foldlM (h : text.foldlM push {} = some {}) : IsBlank text := by
  induction text using List.reverseRecOn with
  | nil => exact isBlank_nil
  | append_singleton text c ih =>
    rw [List.foldlM_append] at h
    obtain ⟨lexer, htext, hpush⟩ := Option.bind_eq_some_iff.mp h
    rw [foldlM_singleton] at hpush
    obtain ⟨rfl, hc⟩ := push_eq_start hpush
    intro d hd
    rcases List.mem_append.mp hd with hd | hd
    · exact ih htext d hd
    · rwa [List.mem_singleton.mp hd]

theorem finish_eq_nil (h : lexer.finish = some []) : lexer = {} := by
  obtain ⟨tokens, mode⟩ := lexer
  cases mode with
  | between =>
    obtain rfl := List.reverse_eq_nil_iff.mp (Option.some.inj h)
    rfl
  | number phase literal =>
    obtain ⟨-, hread⟩ := Option.ite_none_right_eq_some.mp h
    simp [emit] at hread
  | _ => cases h

end Lexer

/-- A text without tokens is blank. -/
theorem isBlank_of_tokens? {s : String} (h : tokens? s = some []) : IsBlank s.toList := by
  obtain ⟨lexer, hread, hfinish⟩ := Option.bind_eq_some_iff.mp h
  rw [Lexer.finish_eq_nil hfinish] at hread
  exact Lexer.isBlank_of_foldlM hread

/-- Between tokens a text can be cut. -/
theorem tokens?_append {s : String} {read : List Token}
    (h : s.toList.foldlM Lexer.push {} = some ⟨read, .between⟩) (more : String) :
    tokens? (s ++ more) = (tokens? more).map (read.reverse ++ ·) := by
  have hmore : more.toList.foldlM Lexer.push ⟨read, .between⟩ =
      (more.toList.foldlM Lexer.push {}).map (·.onto read) := Lexer.foldlM_onto {} read more.toList
  rw [tokens?, tokens?, String.toList_append, foldlM_append_of_some h, hmore]
  cases more.toList.foldlM Lexer.push {} with
  | none => rfl
  | some lexer => exact lexer.finish_onto read

namespace Parser
variable {frames rest : List Frame} {parser : Parser} {v w : Json}

/-- Nothing is taken after the value is complete. -/
theorem foldlM_finished {tokens : List Token} (h : tokens ≠ []) :
    tokens.foldlM push ⟨frames, .finished v⟩ = none := by
  cases tokens with
  | nil => exact absurd rfl h
  | cons token tokens =>
    have hpush : push ⟨frames, .finished v⟩ token = none := by cases token <;> rfl
    rw [List.foldlM_cons, hpush]
    rfl

theorem deliver_finished (h : deliver frames w = some ⟨rest, .finished v⟩) : v = w := by
  cases frames with
  | nil =>
    cases h
    rfl
  | cons frame frames => cases frame <;> cases h

/-- A number completes no value but itself. -/
theorem push_number {literal : String}
    (h : parser.push (.number literal) = some ⟨rest, .finished v⟩) : v = .number literal := by
  obtain ⟨frames, place⟩ := parser
  cases place with
  | value | firstItem => exact deliver_finished h
  | _ => cases h

end Parser

/-- With more than blanks after it, the text of anything but a number is refused. -/
theorem parse?_append_eq_none {s more : String} {v : Json} (h : parse? s = some v)
    (hv : ∀ literal, v ≠ .number literal) (hmore : ¬ IsBlank more.toList) :
    parse? (s ++ more) = none := by
  obtain ⟨tokens, htokens, hparse⟩ := Option.bind_eq_some_iff.mp h
  obtain ⟨⟨frames, place⟩, hparser, hfinished⟩ := Option.bind_eq_some_iff.mp hparse
  obtain ⟨⟨read, mode⟩, hread, hfinish⟩ := Option.bind_eq_some_iff.mp htokens
  obtain rfl : place = .finished v := by
    cases place <;> cases hfinished
    rfl
  cases mode with
  | between =>
    obtain rfl := Option.some.inj hfinish
    rw [parse?, tokens?_append hread]
    cases hadded : tokens? more with
    | none => rfl
    | some added =>
      have hne : added ≠ [] := by
        rintro rfl
        exact hmore (isBlank_of_tokens? hadded)
      show Option.bind ((read.reverse ++ added).foldlM Parser.push {}) Parser.finish = none
      rw [foldlM_append_of_some hparser, Parser.foldlM_finished hne]
      rfl
  | number phase literal =>
    obtain ⟨-, hlast⟩ := Option.ite_none_right_eq_some.mp hfinish
    obtain rfl := Option.some.inj hlast
    rw [Lexer.emit, List.reverse_cons, List.foldlM_append] at hparser
    obtain ⟨parser, -, hpush⟩ := Option.bind_eq_some_iff.mp hparser
    rw [foldlM_singleton] at hpush
    exact absurd (Parser.push_number hpush) (hv _)
  | _ => cases hfinish

end StateMachine.Json

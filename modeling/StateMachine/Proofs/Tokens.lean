import StateMachine.Json.Parser

namespace StateMachine

section
variable {α β : Type} {f : β → α → Option β} {b b' : β} {x : α} {xs ys : List α}

theorem foldlM_cons_of_some (h : f b x = some b') : (x :: xs).foldlM f b = xs.foldlM f b' := by
  rw [List.foldlM_cons, h]
  rfl

theorem foldlM_append_of_some (h : xs.foldlM f b = some b') :
    (xs ++ ys).foldlM f b = ys.foldlM f b' := by
  rw [List.foldlM_append, h]
  rfl

theorem foldlM_singleton (f : β → α → Option β) (b : β) (x : α) : [x].foldlM f b = f b x := by
  rw [List.foldlM_cons]
  exact bind_pure (f b x)

end

namespace Json

mutual

/-- The tokens of a value, in order. -/
def tokens : Json → List Token
  | null => [.null]
  | bool b => [.bool b]
  | number literal => [.number literal]
  | string text => [.string text]
  | array [] => [.openArray, .closeArray]
  | array (v :: rest) => .openArray :: (v.tokens ++ tokensAfterItem rest)
  | object [] => [.openObject, .closeObject]
  | object ((key, v) :: rest) =>
    .openObject :: .string key :: .colon :: (v.tokens ++ tokensAfterMember rest)

def tokensAfterItem : List Json → List Token
  | [] => [.closeArray]
  | v :: rest => .comma :: (v.tokens ++ tokensAfterItem rest)

def tokensAfterMember : List (Option String × Json) → List Token
  | [] => [.closeObject]
  | (key, v) :: rest => .comma :: .string key :: .colon :: (v.tokens ++ tokensAfterMember rest)

end

namespace Parser

theorem foldlM_key {frames : List Frame} {members : List (Option String × Json)}
    {key : Option String} {place : Place} {tokens : List Token}
    (h : push ⟨.object members :: frames, place⟩ (.string key) =
      some ⟨.member members key :: frames, .colon⟩) :
    (.string key :: .colon :: tokens).foldlM push ⟨.object members :: frames, place⟩ =
      tokens.foldlM push ⟨.member members key :: frames, .value⟩ := by
  have hcolon : push ⟨.member members key :: frames, .colon⟩ .colon =
    some ⟨.member members key :: frames, .value⟩ := rfl
  rw [foldlM_cons_of_some h, foldlM_cons_of_some hcolon]

/-- Where an array was just opened, a value is read as everywhere else. -/
theorem foldlM_firstItem (frames : List Frame) (v : Json) :
    v.tokens.foldlM push ⟨frames, .firstItem⟩ = v.tokens.foldlM push ⟨frames, .value⟩ := by
  cases v with
  | array items => cases items <;> simp only [tokens] <;> rfl
  | object members => cases members <;> simp only [tokens] <;> rfl
  | _ => rfl

mutual

theorem foldlM_tokens (frames : List Frame) (v : Json) :
    v.tokens.foldlM push ⟨frames, .value⟩ = deliver frames v := by
  match v with
  | .null | .bool _ | .number _ | .string _ =>
    simp only [tokens]
    exact foldlM_singleton ..
  | .array [] =>
    simp only [tokens]
    exact foldlM_singleton push ⟨.array [] :: frames, .firstItem⟩ .closeArray
  | .array (v :: rest) =>
    have hopen : push ⟨frames, .value⟩ .openArray = some ⟨.array [] :: frames, .firstItem⟩ := rfl
    have hv := (foldlM_firstItem (.array [] :: frames) v).trans
      (foldlM_tokens (.array [] :: frames) v)
    simp only [tokens]
    rw [foldlM_cons_of_some hopen, foldlM_append_of_some hv]
    exact foldlM_tokensAfterItem frames [v] rest
  | .object [] =>
    simp only [tokens]
    exact foldlM_singleton push ⟨.object [] :: frames, .firstKey⟩ .closeObject
  | .object ((key, v) :: rest) =>
    have hopen : push ⟨frames, .value⟩ .openObject = some ⟨.object [] :: frames, .firstKey⟩ := rfl
    have hv := foldlM_tokens (.member [] key :: frames) v
    simp only [tokens]
    rw [foldlM_cons_of_some hopen, foldlM_key rfl, foldlM_append_of_some hv]
    exact foldlM_tokensAfterMember frames [(key, v)] rest

theorem foldlM_tokensAfterItem (frames : List Frame) (items rest : List Json) :
    (tokensAfterItem rest).foldlM push ⟨.array items :: frames, .separator⟩ =
      deliver frames (.array (items.reverse ++ rest)) := by
  match rest with
  | [] =>
    simp only [tokensAfterItem, List.append_nil]
    exact foldlM_singleton ..
  | v :: rest =>
    have hcomma : push ⟨.array items :: frames, .separator⟩ .comma =
      some ⟨.array items :: frames, .value⟩ := rfl
    simp only [tokensAfterItem]
    have hv := foldlM_tokens (.array items :: frames) v
    rw [foldlM_cons_of_some hcomma, foldlM_append_of_some hv,
      foldlM_tokensAfterItem frames (v :: items) rest]
    simp

theorem foldlM_tokensAfterMember (frames : List Frame) (members rest : List (Option String × Json)) :
    (tokensAfterMember rest).foldlM push ⟨.object members :: frames, .separator⟩ =
      deliver frames (.object (members.reverse ++ rest)) := by
  match rest with
  | [] =>
    simp only [tokensAfterMember, List.append_nil]
    exact foldlM_singleton ..
  | (key, v) :: rest =>
    have hcomma : push ⟨.object members :: frames, .separator⟩ .comma =
      some ⟨.object members :: frames, .key⟩ := rfl
    simp only [tokensAfterMember]
    have hv := foldlM_tokens (.member members key :: frames) v
    rw [foldlM_cons_of_some hcomma, foldlM_key rfl, foldlM_append_of_some hv,
      foldlM_tokensAfterMember frames ((key, v) :: members) rest]
    simp

end
end Parser

/-- The tokens of a value denote that value. -/
theorem parse?_of_tokens {s : String} {v : Json} (h : tokens? s = some v.tokens) :
    parse? s = some v := by
  have hread : v.tokens.foldlM Parser.push {} = some ⟨[], .finished v⟩ := Parser.foldlM_tokens [] v
  rw [parse?, h, Option.bind_eq_bind, Option.bind_some, hread]
  rfl

end Json
end StateMachine

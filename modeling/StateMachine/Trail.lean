namespace StateMachine

/-- A sequence as the pieces it was joined from. Joining takes no copy, so a call within a call
within a call is recorded in time that grows with what happened, not with its depth as well. -/
inductive Trail (α : Type) where
  | items (xs : List α)
  | join (first second : Trail α)

namespace Trail
variable {α : Type}

/-- An empty piece is dropped. -/
protected def append : Trail α → Trail α → Trail α
  | items [], second => second
  | first, items [] => first
  | first, second => join first second

instance : Append (Trail α) := ⟨Trail.append⟩

/-- The items in order, in front of others. -/
def onto : Trail α → List α → List α
  | items xs, rest => xs ++ rest
  | join first second, rest => first.onto (second.onto rest)

def toList (t : Trail α) : List α := t.onto []

theorem onto_eq (t : Trail α) (rest : List α) : t.onto rest = t.toList ++ rest := by
  induction t generalizing rest with
  | items xs => simp [toList, onto]
  | join first second ih₁ ih₂ =>
    simp only [toList, onto]
    rw [ih₁, ih₂, ih₁ (second.onto []), ← toList, List.append_assoc]

@[simp] theorem toList_items (xs : List α) : (items xs).toList = xs := by simp [toList, onto]

@[simp] theorem toList_join (first second : Trail α) :
    (join first second).toList = first.toList ++ second.toList := first.onto_eq second.toList

@[simp] theorem toList_append (first second : Trail α) :
    (first ++ second).toList = first.toList ++ second.toList := by
  change (Trail.append first second).toList = _
  fun_cases Trail.append first second <;> simp

end Trail
end StateMachine

namespace StateMachine

/-- States and events are numbered apart: state 3 and event 3 have nothing in common. -/
inductive Space where
  | state
  | event
deriving DecidableEq

/-- A number in one of the two spaces. Number 0 is reserved: it has a name but no declaration. -/
structure Number (space : Space) where
  value : UInt16
deriving DecidableEq, Inhabited

abbrev StateId := Number .state
abbrev EventId := Number .event

/-- Name of state 0 and of event 0. -/
def reservedName : String := "none"

namespace Number
variable {space : Space}

def reserved : Number space := ⟨0⟩
def ofNat (n : Nat) : Number space := ⟨UInt16.ofNat n⟩
def index (n : Number space) : Nat := n.value.toNat
def isReserved (n : Number space) : Bool := n == reserved

instance : Ord (Number space) := ⟨fun a b => compare a.value b.value⟩

/-- Messages tell the spaces apart by the word before the number. -/
def text : {space : Space} → Number space → String
  | .state, n => s!"state#{n.index}"
  | .event, n => s!"event#{n.index}"

def debugText : {space : Space} → Number space → String
  | .state, n => s!"StateId({n.index})"
  | .event, n => s!"EventId({n.index})"

theorem index_lt (n : Number space) : n.index < 65536 := n.value.toNat_lt

theorem index_inj {a b : Number space} : a.index = b.index ↔ a = b := by
  cases a; cases b; simp [index, UInt16.toNat_inj]

theorem index_ofNat {n : Nat} (h : n < 65536) : (ofNat n : Number space).index = n := by
  simp [index, ofNat]; omega

theorem ofNat_index (n : Number space) : ofNat n.index = n := by
  simp [index, ofNat]

theorem isReserved_iff {n : Number space} : n.isReserved = true ↔ n.index = 0 := by
  have : n.index = 0 ↔ n = reserved := index_inj (b := reserved)
  simp [isReserved, this]

theorem index_ne_zero {n : Number space} (h : n.isReserved = false) : n.index ≠ 0 := by
  intro h₀
  rw [isReserved_iff.mpr h₀] at h
  cases h

theorem isReserved_of_pos {n : Number space} (h : 0 < n.index) : n.isReserved = false := by
  rw [Bool.eq_false_iff, Ne, isReserved_iff]
  omega

theorem isReserved_ofNat {n : Nat} (h₀ : 0 < n) (h : n < 65536) :
    (ofNat n : Number space).isReserved = false :=
  isReserved_of_pos (by rwa [index_ofNat h])

end Number
end StateMachine

import StateMachine.Work

namespace StateMachine
variable {η κ σ ρ α : Type}

namespace Table

def stateBreach (t : Table η κ) (s : StateId) : List Fault :=
  if s.index < t.stateLimit then [] else [.stateRange t.name s t.stateLimit]

def eventBreach (t : Table η κ) (e : EventId) : List Fault :=
  if e.index < t.eventLimit then [] else [.eventRange t.name e t.eventLimit]

/-- The numbers out of range in a call on a machine, in the order in which they are told. -/
def breaches (t : Table η κ) (s : StateId) : Request → List Fault
  | .step e => t.stateBreach s ++ t.eventBreach e
  | .enter target e => t.stateBreach s ++ t.stateBreach target ++ t.eventBreach e

def stateText (t : Table η κ) (s : StateId) : String := (t.stateName? s).getD ""
def eventText (t : Table η κ) (e : EventId) : String := (t.eventName? e).getD ""

/-- What a logger is told of a move. -/
def announcement (t : Table η κ) (s target : StateId) (e : EventId) : String :=
  s!"event {t.eventText e} state {t.stateText s} -> {t.stateText target}"

/-- What everyone else is told of it. -/
def departure (t : Table η κ) (s target : StateId) (e : EventId) : Notice :=
  .entered t.name (t.eventText e) (t.stateText s) (t.stateText target)

variable (t : Table (Handler σ ρ) (Logger σ ρ))

/-- The part of the logger in a move. -/
def told (s target : StateId) (e : EventId) (c : σ) : List (Occurrence σ ρ) :=
  match t.logger with
  | none => []
  | some logger =>
    let message := t.announcement s target e
    .logged s message :: (logger c message).notes.map .noted

def logFailure? (s target : StateId) (e : EventId) (c : σ) : Option String :=
  t.logger.bind fun logger => (logger c (t.announcement s target e)).failure

/-- A whole move, up to the entry handler. -/
def moved (s target : StateId) (e : EventId) (c : σ) : List (Occurrence σ ρ) :=
  t.told s target e c ++ [.reported (t.departure s target e), .assigned target]

end Table

/-- The call that a handler makes next, if that is what it does next. -/
def Routine.request? : Routine σ ρ α → Option Request
  | .enter target e _ => some (.enter target e)
  | .step e _ => some (.step e)
  | _ => none

/-- How far a handler has come. The calls that it has made by then have all returned. -/
inductive Routine.Reaches (calls : Calls σ ρ) : Routine σ ρ α → StateId → σ →
    List (Occurrence σ ρ) → Routine σ ρ α → StateId → σ → Prop where
  | here {r s c} : Reaches calls r s c [] r s c
  | getState {rest s c record r s' c'} (h : Reaches calls (rest s) s c record r s' c') :
    Reaches calls (.getState rest) s c record r s' c'
  | setState {s₁ rest s c record r s' c'} (h : Reaches calls rest s₁ c record r s' c') :
    Reaches calls (.setState s₁ rest) s c (.assigned s₁ :: record) r s' c'
  | getContext {rest s c record r s' c'} (h : Reaches calls (rest c) s c record r s' c') :
    Reaches calls (.getContext rest) s c record r s' c'
  | setContext {c₁ rest s c record r s' c'} (h : Reaches calls rest s c₁ record r s' c') :
    Reaches calls (.setContext c₁ rest) s c record r s' c'
  | note {n rest s c record r s' c'} (h : Reaches calls rest s c record r s' c') :
    Reaches calls (.note n rest) s c (.noted n :: record) r s' c'
  | enter {target e rest s c s₁ c₁ made record r s' c'}
    (hcall : (calls.enter target e s c).account = ⟨.ok (), s₁, c₁, made⟩)
    (h : Reaches calls rest s₁ c₁ record r s' c') :
    Reaches calls (.enter target e rest) s c (made ++ record) r s' c'
  | step {e rest d s c s₁ c₁ made record r s' c'}
    (hcall : (calls.step e s c).account = ⟨.ok d, s₁, c₁, made⟩)
    (h : Reaches calls (rest d) s₁ c₁ record r s' c') :
    Reaches calls (.step e rest) s c (made ++ record) r s' c'

/-- A work that starts on a machine. Handlers may nest to the given depth below it. -/
structure Start (σ ρ : Type) where
  depth : Nat
  work : Work σ ρ
  state : StateId
  context : σ

/-- What a fault ends, and all that it leaves behind. -/
structure Failure (σ ρ : Type) where
  fault : Fault
  state : StateId
  context : σ
  record : List (Occurrence σ ρ)

def Failure.after (failure : Failure σ ρ) (earlier : List (Occurrence σ ρ)) : Failure σ ρ :=
  { failure with record := earlier ++ failure.record }

def Failure.account (failure : Failure σ ρ) : Account σ ρ α :=
  ⟨.error failure.fault, failure.state, failure.context, failure.record⟩

namespace Table
variable (t : Table (Handler σ ρ) (Logger σ ρ))

def account (p : Start σ ρ) : Account σ ρ (Option Outcome) :=
  (t.perform p.depth p.work p.state p.context).account

/-- A work starts another in the course of its own, after what the record says. -/
inductive Leads : Start σ ρ → List (Occurrence σ ρ) → Start σ ρ → Prop where
  | override {depth e s c i target handler} (hcell : t.cell s e = .ok (some i))
    (hat : t.transitionAt i = .ok (target, some handler)) :
    Leads ⟨depth, .call (.step e), s, c⟩ [] ⟨depth, .handle .override handler e, s, c⟩
  | transition {depth e s c i target} (hcell : t.cell s e = .ok (some i))
    (hat : t.transitionAt i = .ok (target, none)) :
    Leads ⟨depth, .call (.step e), s, c⟩ [] ⟨depth, .call (.enter target e), s, c⟩
  | arrival {depth target e s c handler} (hclear : t.breaches s (.enter target e) = [])
    (hlog : t.logFailure? s target e c = none)
    (hentry : t.entryHandler? target = some handler) :
    Leads ⟨depth, .call (.enter target e), s, c⟩ (t.moved s target e c)
      ⟨depth, .handle .entry handler e, target, c⟩
  | nested {depth role handler e s c record rest s' c' request}
    (hreach : ((handler : Handler σ ρ) t.view e).Reaches (t.calls (depth + 1)) s c record rest s' c')
    (hrequest : rest.request? = some request) :
    Leads ⟨depth + 1, .handle role handler e, s, c⟩ (.began role s e c :: record)
      ⟨depth, .call request, s', c'⟩

/-- Any number of such steps inwards. -/
inductive Reaches : Start σ ρ → List (Occurrence σ ρ) → Start σ ρ → Prop where
  | here {p} : Reaches p [] p
  | into {p q r first rest} (h : t.Leads p first q) (hrest : Reaches q rest r) :
    Reaches p (first ++ rest) r

/-- A work that fails by itself, and not by another that it starts. A number out of range is found
before anything is done, and a logger that fails is heard before the move. -/
inductive Culprit : Start σ ρ → Failure σ ρ → Prop where
  | range {depth request s c fault} (h : (t.breaches s request).head? = some fault) :
    Culprit ⟨depth, .call request, s, c⟩ ⟨fault, s, c, []⟩
  | logger {depth target e s c message} (hclear : t.breaches s (.enter target e) = [])
    (h : t.logFailure? s target e c = some message) :
    Culprit ⟨depth, .call (.enter target e), s, c⟩
      ⟨.raised message, s, c, t.told s target e c⟩
  | handler {depth role handler e s c record fault s' c'}
    (h : ((handler : Handler σ ρ) t.view e).Reaches (t.calls depth) s c record (.fail fault) s' c') :
    Culprit ⟨depth, .handle role handler e, s, c⟩ ⟨fault, s', c', .began role s e c :: record⟩
  /-- A call from a handler below which no other may run. -/
  | depth {role handler e s c record rest s' c' request}
    (h : ((handler : Handler σ ρ) t.view e).Reaches (t.calls 0) s c record rest s' c')
    (hrequest : rest.request? = some request) :
    Culprit ⟨0, .handle role handler e, s, c⟩ ⟨.nesting, s', c', .began role s e c :: record⟩

end Table
end StateMachine

import Custody.Vocabulary

/-!
# The lifecycle of an escrow

    PENDING  → ACTIVE, CANCELLED
    ACTIVE   → COMPLETED, CANCELLED, DISPUTED
    DISPUTED → COMPLETED, CANCELLED

`COMPLETED` and `CANCELLED` are final. Every status but the first is entered by exactly one
signal, so the table of steps is all there is to know.

> `step?_eq_some_iff`: a signal is accepted exactly where the table has a step to its target.
-/

namespace Custody

/-- The signals that move an escrow. -/
inductive Signal where
  | activate | complete | cancel | openDispute
deriving DecidableEq, Repr, Inhabited

instance : Worded Signal where
  title := "event"
  all := [.activate, .complete, .cancel, .openDispute]
  word
    | .activate => "activate_escrow"
    | .complete => "complete_escrow"
    | .cancel => "cancel_escrow"
    | .openDispute => "open_dispute"

/-- A signal as a reader is told about it. -/
def Signal.label : Signal → String
  | .activate => "Activate escrow"
  | .complete => "Complete escrow"
  | .cancel => "Cancel escrow"
  | .openDispute => "Open dispute"

/-- The status that a signal leads to. -/
def Signal.target : Signal → Status
  | .activate => .active
  | .complete => .completed
  | .cancel => .cancelled
  | .openDispute => .disputed

namespace Status

/-- The statuses one step away, by their words in alphabetical order. -/
def successors : Status → List Status
  | .pending => [.active, .cancelled]
  | .active => [.cancelled, .completed, .disputed]
  | .disputed => [.cancelled, .completed]
  | .completed => []
  | .cancelled => []

/-- The statuses that nothing leaves. -/
def isTerminal : Status → Bool
  | .completed | .cancelled => true
  | _ => false

/-- The signals that a status accepts, by their words in alphabetical order. -/
def signals : Status → List Signal
  | .pending => [.activate, .cancel]
  | .active => [.cancel, .complete, .openDispute]
  | .disputed => [.cancel, .complete]
  | .completed => []
  | .cancelled => []

/-- The status after a signal, where the table has such a step. -/
def step? (s : Status) (g : Signal) : Option Status :=
  if g.target ∈ s.successors then some g.target else none

theorem step?_eq_some_iff {s t : Status} {g : Signal} :
    s.step? g = some t ↔ t ∈ s.successors ∧ t = g.target := by
  unfold step?
  split
  · rename_i h
    constructor
    · intro e; cases e; exact ⟨h, rfl⟩
    · rintro ⟨_, rfl⟩; rfl
  · rename_i h
    constructor
    · intro e; cases e
    · rintro ⟨ht, rfl⟩; exact absurd ht h

/-- A status is terminal exactly when nothing follows it. -/
theorem isTerminal_iff {s : Status} : s.isTerminal = true ↔ s.successors = [] := by
  cases s <;> simp [isTerminal, successors]

/-- A status accepts exactly the signals that lead to its successors. -/
theorem mem_signals_iff {s : Status} {g : Signal} : g ∈ s.signals ↔ g.target ∈ s.successors := by
  cases s <;> cases g <;> simp [signals, Signal.target, successors]

end Status

/-- A signal that a status refuses, or a status that nothing leads to. -/
structure IllegalStep where
  current : Status
  attempted : Status
deriving DecidableEq, Repr

/-- A move to a status: it is the status itself when the table allows it. -/
def advance (current target : Status) : Except IllegalStep Status :=
  if target ∈ current.successors then .ok target else .error ⟨current, target⟩

/-- A text that names no status, found where a move starts or where it should end. -/
inductive UnknownStatus where
  | current (shown : String)
  | target (shown : String)
deriving DecidableEq, Repr

/-- The text of the complaint; at the start of a move the known statuses are listed. -/
def UnknownStatus.message : UnknownStatus → String
  | .current s =>
    "Unknown status '" ++ s ++ "'. Valid states: ACTIVE, CANCELLED, COMPLETED, DISPUTED, PENDING"
  | .target s => "Unknown status '" ++ s ++ "'"

/-- The status that a move starts from. -/
def currentStatus (v : Json) : Except UnknownStatus Status :=
  match ofWord? v.display with
  | some s => .ok s
  | none => .error (.current v.display)

/-- The status that a move should end in; only a text can name one. -/
def targetStatus (v : Json) : Except UnknownStatus Status :=
  match v with
  | .text w =>
    match ofWord? w with
    | some s => .ok s
    | none => .error (.target w)
  | v => .error (.target v.display)

/-- A move to a status succeeds exactly when the table has the step. -/
theorem advance_eq_ok_iff {s t u : Status} : advance s t = .ok u ↔ t ∈ s.successors ∧ u = t := by
  unfold advance
  split
  · rename_i h
    constructor
    · intro e; cases e; exact ⟨h, rfl⟩
    · rintro ⟨_, rfl⟩; rfl
  · rename_i h
    constructor
    · intro e; cases e
    · rintro ⟨ht, _⟩; exact absurd ht h

/-- The text of a refused signal. -/
def refusal (s : Status) (g : Signal) : String :=
  "Can't " ++ g.label ++ " when in " ++ word s ++ "."

end Custody

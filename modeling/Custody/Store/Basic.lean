import Custody.Store.Table
import Custody.Schema.Request

/-!
# The store

Escrows with their parties, the conditions that must be met, and the audit log, to which entries are
only ever added. A record keeps the amount and the deadline it was given; what is read back later is
the amount as the nearest binary value with seven places, and the deadline as the clock showed it.

> `nextSequence_gt`: the number of the next event of an escrow is larger than any it has.
-/

namespace Custody

/-- An agreement on funds in custody, and its state. -/
structure Escrow where
  id : Identifier
  title : String
  description : Option String
  amount : Decimal
  asset : String
  type : EscrowType
  status : Status
  creator : String
  released : Bool
  releaseTransaction : Option String
  fundingTransaction : Option String
  deadline : Option Moment
  parties : List Party
  createdAt : Moment
  updatedAt : Moment
deriving DecidableEq, Repr, Inhabited

/-- A condition that must be met before an escrow releases itself. -/
structure Condition where
  id : Identifier
  escrow : Identifier
  description : String
  type : ConditionType
  metadata : Option Members
  met : Bool
  metAt : Option Moment
  metBy : Option String
deriving Repr, Inhabited

/-- A new value of a term. -/
inductive Change where
  | title (t : String)
  | description (d : Option String)
  | deadline (m : Option Moment)
deriving DecidableEq, Repr

/-- On whose word funds were released: asked for by a user or triggered by the conditions, or
decided in a dispute. -/
inductive ReleaseBasis where
  | request (manual : Bool)
  | decision (resolution : Resolution) (note : Option String)
deriving DecidableEq, Repr

/-- What an event tells beside its type. -/
inductive EventData where
  | created (title : String) (amount : Decimal) (asset : String) (parties : List Party)
      (conditionCount : Nat)
  | updated (changes : List Change)
  | activated (transaction : Option String)
  | disputed (reason : Option String)
  | conditionMet (condition : Identifier) (description : String)
  | completed (basis : ReleaseBasis) (beneficiary transaction : String)
  | cancelled (decision : Option (Resolution × Option String)) (reason : Option String)
      (previous : Status)
  | expired (reason : String) (deadline : Moment) (previous : Status)
  | other (v : Json)
deriving Repr, Inhabited

/-- An entry of the audit log. -/
structure Event where
  id : Identifier
  escrow : Identifier
  sequence : Nat
  type : EventType
  actor : String
  oldStatus : Option String
  newStatus : Option String
  data : EventData
  address : Option String
  recordedAt : Moment
deriving Repr, Inhabited

/-- The records of the service. Conditions and events name their escrow. -/
structure Store where
  escrows : List Escrow
  conditions : List Condition
  events : List Event
deriving Repr, Inhabited

/-! ## Reading -/

namespace Escrow

/-- The user to whom a release is paid. -/
def recipient? (e : Escrow) : Option String := Custody.recipient? e.parties

/-- The record as it is read back. -/
def loaded (e : Escrow) : Escrow :=
  { e with amount := Decimal.ofBinary64 e.amount.toBinary64
           deadline := e.deadline.map Moment.withoutOffset }

/-- The record as a row. -/
def row (e : Escrow) : EscrowRow :=
  { title := some e.title, description := e.description, amount := some e.amount
    asset := e.asset, type := word e.type, status := word e.status, creator := some e.creator
    released := e.released, releaseTransaction := e.releaseTransaction
    fundingTransaction := e.fundingTransaction, deadline := e.deadline }

/-- Reading back changes neither who takes part nor what state the escrow is in. -/
@[simp]
theorem loaded_status (e : Escrow) : e.loaded.status = e.status := rfl

@[simp]
theorem loaded_parties (e : Escrow) : e.loaded.parties = e.parties := rfl

end Escrow

namespace Store

/-- A store without records. -/
def empty : Store := ⟨[], [], []⟩

/-- The record of an escrow as it was written. -/
def stored? (s : Store) (id : Identifier) : Option Escrow := s.escrows.find? fun e => e.id = id

/-- The record of an escrow as it is read back. -/
def escrow? (s : Store) (id : Identifier) : Option Escrow := (s.stored? id).map Escrow.loaded

/-- A condition. -/
def condition? (s : Store) (id : Identifier) : Option Condition :=
  s.conditions.find? fun c => c.id = id

/-- The conditions of an escrow, in the order in which they were given. -/
def conditionsOf (s : Store) (escrow : Identifier) : List Condition :=
  s.conditions.filter fun c => c.escrow = escrow

/-- The audit log of an escrow, oldest entry first. -/
def eventsOf (s : Store) (escrow : Identifier) : List Event :=
  (s.events.filter fun e => e.escrow = escrow).mergeSort fun a b => a.sequence ≤ b.sequence

/-- How many conditions of an escrow are still open. -/
def countUnmet (s : Store) (escrow : Identifier) : Nat :=
  ((s.conditionsOf escrow).filter fun c => !c.met).length

/-- The number of the next event of an escrow. -/
def nextSequence (s : Store) (escrow : Identifier) : Nat :=
  ((s.events.filter fun e => e.escrow = escrow).map (·.sequence)).foldl max 0 + 1

/-! ## Writing -/

/-- The store with the record of an escrow changed. -/
def modify (s : Store) (id : Identifier) (f : Escrow → Escrow) : Store :=
  { s with escrows := s.escrows.map fun e => if e.id = id then f e else e }

/-- The store with a condition met. -/
def meet (s : Store) (id : Identifier) (at' : Moment) (user : String) : Store :=
  { s with conditions := s.conditions.map fun c =>
      if c.id = id then { c with met := true, metAt := some at', metBy := some user } else c }

/-- The store with one more event. -/
def append (s : Store) (e : Event) : Store := { s with events := s.events ++ [e] }

/-! ## Laws -/

theorem le_foldl_max (l : List Nat) (m : Nat) : m ≤ l.foldl max m ∧ ∀ x ∈ l, x ≤ l.foldl max m := by
  induction l generalizing m with
  | nil => simp
  | cons a l ih =>
    obtain ⟨h1, h2⟩ := ih (max m a)
    refine ⟨Nat.le_trans (Nat.le_max_left m a) h1, ?_⟩
    intro x hx
    rcases List.mem_cons.1 hx with rfl | hx
    · exact Nat.le_trans (Nat.le_max_right m x) h1
    · exact h2 x hx

theorem nextSequence_gt {s : Store} {e : Event} {id : Identifier} (he : e ∈ s.events)
    (h : e.escrow = id) : e.sequence < s.nextSequence id := by
  unfold nextSequence
  refine Nat.lt_succ_of_le ((le_foldl_max _ 0).2 _ ?_)
  exact List.mem_map.2 ⟨e, List.mem_filter.2 ⟨he, by simp [h]⟩, rfl⟩

end Store

/-! ## What is shown -/

/-- A moment in UTC, or null. -/
def stampJson (m : Option Moment) : Json := Json.ofText? (m.map Moment.stamp)

/-- The new value of a term as JSON. -/
def Change.entry : Change → String × Json
  | .title t => ("title", .text t)
  | .description d => ("description", Json.ofText? d)
  | .deadline m => ("expires_at", Json.ofText? (m.map Moment.isoText))

/-- The members that tell how a release came about. -/
def ReleaseBasis.members : ReleaseBasis → Members
  | .request manual => [("manual", .bool manual)]
  | .decision r note => [("resolution", .text (word r)), ("note", Json.ofText? note)]

/-- The data of an event as JSON. -/
def EventData.toJson : EventData → Json
  | .created title amount asset parties n =>
    .object [("title", .text title), ("amount", .text amount.text), ("asset", .text asset),
      ("parties", .list (parties.map fun p =>
        .object [("user_id", .text p.user), ("role", .text (word p.role))])),
      ("condition_count", .int n)]
  | .updated cs => .object [("changes", .object (cs.map Change.entry))]
  | .activated t => .object [("funding_transaction_hash", Json.ofText? t)]
  | .disputed r => .object [("reason", Json.ofText? r)]
  | .conditionMet c d => .object [("condition_id", .text c.text), ("description", .text d)]
  | .completed basis b t =>
    .object (basis.members ++ [("beneficiary", .text b), ("tx_hash", .text t)])
  | .cancelled decision reason previous =>
    .object ((match decision with
        | some (r, note) => [("resolution", .text (word r)), ("note", Json.ofText? note)]
        | none => []) ++
      [("reason", Json.ofText? reason), ("previous_status", .text (word previous))])
  | .expired reason deadline previous =>
    .object [("reason", .text reason), ("expires_at", .text deadline.isoText),
      ("previous_status", .text (word previous))]
  | .other v => v

end Custody

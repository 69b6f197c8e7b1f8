import Custody.Store.Basic

/-!
# Insertion

Rows that are put into the tables one by one. A column without a value has its usual one where there
is such. Every row is numbered when it is made, so a row that is refused uses a number too.

> `insertParty_twice`: a party that was accepted is refused the second time.
-/

namespace Custody

/-- The values of an escrow row; what is missing has its usual value, or none. -/
structure EscrowValues where
  title : Option String
  description : Option String
  amount : Option Decimal
  asset : Option String
  type : Option String
  status : Option String
  creator : Option String
  released : Option Bool
  releaseTransaction : Option String
  fundingTransaction : Option String
  deadline : Option Moment

/-- The row with these values: usually a pending standard escrow in the standard asset. -/
def EscrowValues.row (v : EscrowValues) : EscrowRow :=
  { title := v.title, description := v.description, amount := v.amount
    asset := v.asset.getD "XLM", type := v.type.getD (word EscrowType.standard)
    status := v.status.getD (word Status.pending), creator := v.creator
    released := v.released.getD false, releaseTransaction := v.releaseTransaction
    fundingTransaction := v.fundingTransaction, deadline := v.deadline }

/-- The values of a condition row. -/
structure ConditionValues where
  escrow : Option Identifier
  description : Option String
  type : Option String
  metadata : Json
  met : Option Bool
  metAt : Option Moment
  metBy : Option String

/-- The row with these values: usually an open condition that is met by hand. -/
def ConditionValues.row (v : ConditionValues) : ConditionRow :=
  { escrow := v.escrow, description := v.description
    type := v.type.getD (word ConditionType.manual), metadata := v.metadata
    met := v.met.getD false, metAt := v.metAt, metBy := v.metBy }

/-- The values of an event row. -/
structure EventValues where
  escrow : Option Identifier
  sequence : Option Int
  type : Option String
  actor : Option String
  oldStatus : Option String
  newStatus : Option String
  data : Json
  address : Option String

/-- The row with these values: usually the system has acted. -/
def EventValues.row (v : EventValues) : EventRow :=
  { escrow := v.escrow, sequence := v.sequence, type := v.type, actor := v.actor.getD "SYSTEM"
    oldStatus := v.oldStatus, newStatus := v.newStatus, data := v.data, address := v.address }

/-! ## Rows as JSON -/

/-- The columns of an escrow row that was put in at a time. -/
def EscrowRow.members (r : EscrowRow) (now : Moment) : Members :=
  [("title", Json.ofText? r.title), ("description", Json.ofText? r.description),
    ("amount", Json.ofText? (r.amount.map Decimal.text)), ("asset", .text r.asset),
    ("type", .text r.type), ("status", .text r.status), ("creator_id", Json.ofText? r.creator),
    ("is_released", .bool r.released),
    ("release_transaction_hash", Json.ofText? r.releaseTransaction),
    ("funding_transaction_hash", Json.ofText? r.fundingTransaction),
    ("expires_at", stampJson r.deadline), ("updated_at", stampJson (some now))]

/-- The columns of a party row. -/
def PartyRow.members (r : PartyRow) : Members :=
  [("user_id", Json.ofText? r.user), ("role", Json.ofText? r.role)]

/-- The columns of a condition row. -/
def ConditionRow.members (r : ConditionRow) : Members :=
  [("description", Json.ofText? r.description), ("type", .text r.type),
    ("metadata_json", r.metadata), ("is_met", .bool r.met), ("met_at", stampJson r.metAt),
    ("met_by_user_id", Json.ofText? r.metBy)]

/-- The columns of an event row. -/
def EventRow.members (r : EventRow) : Members :=
  [("sequence", (r.sequence.map Json.int).getD .null), ("event_type", Json.ofText? r.type),
    ("actor_id", .text r.actor), ("old_status", Json.ofText? r.oldStatus),
    ("new_status", Json.ofText? r.newStatus), ("data", r.data),
    ("ip_address", Json.ofText? r.address)]

/-! ## Tables -/

/-- The rows that later ones must differ from, and how many of each kind were made. -/
structure Tables where
  parties : List PartyRow
  events : List EventRow
  escrowCount : Nat
  conditionCount : Nat
  eventCount : Nat

namespace Tables

/-- Tables without rows. -/
def empty : Tables := ⟨[], [], 0, 0, 0⟩

/-- A row, unless there is something against it. -/
def accepted {α : Type} (fault : Option Constraint) (a : α) : Except Failure α :=
  match fault with
  | some c => .error (.store c)
  | none => .ok a

/-- Puts an escrow row in, with the next identifier. -/
def insertEscrow (t : Tables) (r : EscrowRow) : Except Failure Identifier × Tables :=
  let n := t.escrowCount + 1
  (accepted r.fault? (Identifier.escrow n), { t with escrowCount := n })

/-- Puts a party row in. -/
def insertParty (t : Tables) (r : PartyRow) : Except Failure Unit × Tables :=
  match r.fault? t.parties with
  | some c => (.error (.store c), t)
  | none => (.ok (), { t with parties := t.parties ++ [r] })

/-- Puts a condition row in, with the next identifier. -/
def insertCondition (t : Tables) (r : ConditionRow) : Except Failure Identifier × Tables :=
  let n := t.conditionCount + 1
  (accepted r.fault? (Identifier.condition n), { t with conditionCount := n })

/-- Puts an event row in, with the next identifier. A sequence of more than 64 bits cannot be handed
over to the store. -/
def insertEvent (t : Tables) (r : EventRow) : Except Failure Identifier × Tables :=
  let n := t.eventCount + 1
  let counted := { t with eventCount := n }
  if r.sequence.any fun k => !fitsWord k then (.error .offsetOutOfRange, counted)
  else match r.fault? t.events with
    | some c => (.error (.store c), counted)
    | none => (.ok (Identifier.event n), { counted with events := t.events ++ [r] })

/-- A party that was accepted is refused the second time. -/
theorem insertParty_twice {t : Tables} {r : PartyRow} (h : r.fault? t.parties = none) :
    ((t.insertParty r).2.insertParty r).1 =
      .error (.store (.distinct ["escrow_parties.escrow_id", "escrow_parties.user_id",
        "escrow_parties.role"])) := by
  have h2 : r.fault? (t.parties ++ [r]) =
      some (.distinct ["escrow_parties.escrow_id", "escrow_parties.user_id",
        "escrow_parties.role"]) := by
    unfold PartyRow.fault? missingColumn failedCheck at h ⊢
    revert h
    cases r.escrow.isNone <;> cases r.user.isNone <;> cases r.role.isNone <;>
      cases ((r.role.bind fun w => (ofWord? w : Option Role)).isSome) <;> simp
  simp [insertParty, h, h2]

end Tables

end Custody

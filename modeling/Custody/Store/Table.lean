import Custody.Failure
import Custody.Json.Display

/-!
# Rows and their constraints

What the four tables of the store accept. A row is looked at column by column for what is missing,
then against the checks in the order in which they are declared, then against the rows that are
already there.

> `EscrowRow.fault?_eq_none_iff`: an escrow row is accepted exactly when it has a title, a creator
> and a positive amount, its status is known, and it is released, completed and settled together.
-/

namespace Custody

/-- A row of the escrow table, as it is handed to the store. -/
structure EscrowRow where
  title : Option String
  description : Option String
  amount : Option Decimal
  asset : String
  type : String
  status : String
  creator : Option String
  released : Bool
  releaseTransaction : Option String
  fundingTransaction : Option String
  deadline : Option Moment
deriving Repr

/-- A row of the party table. -/
structure PartyRow where
  escrow : Option Identifier
  user : Option String
  role : Option String
deriving DecidableEq, Repr

/-- A row of the condition table. -/
structure ConditionRow where
  escrow : Option Identifier
  description : Option String
  type : String
  metadata : Json
  met : Bool
  metAt : Option Moment
  metBy : Option String
deriving Repr

/-- A row of the event table. -/
structure EventRow where
  escrow : Option Identifier
  sequence : Option Int
  type : Option String
  actor : String
  oldStatus : Option String
  newStatus : Option String
  data : Json
  address : Option String
deriving Repr

/-- The complaint about a column without a value. -/
def missingColumn (table column : String) (isMissing : Bool) : Option Constraint :=
  if isMissing then some (.required table column) else none

/-- The complaint of a check that does not hold. -/
def failedCheck (name : String) (holds : Bool) : Option Constraint :=
  if holds then none else some (.check name)

/-- Whether an amount counts as one in the store; an undefined number is as good as none. -/
def amountPresent : Option Decimal → Bool
  | some (.undefined ..) => false
  | some _ => true
  | none => false

/-- Whether an amount lies above zero in the store, which keeps the nearest binary value. -/
def amountPositive (d : Option Decimal) : Bool := d.any fun d => d.toBinary64.isPositive

/-- What the store has against an escrow row. -/
def EscrowRow.fault? (r : EscrowRow) : Option Constraint :=
  missingColumn "escrows" "title" r.title.isNone <|>
  missingColumn "escrows" "amount" (!amountPresent r.amount) <|>
  missingColumn "escrows" "creator_id" r.creator.isNone <|>
  failedCheck "ck_escrow_valid_status" ((ofWord? r.status : Option Status).isSome) <|>
  failedCheck "ck_escrow_positive_amount" (amountPositive r.amount) <|>
  failedCheck "ck_escrow_released_iff_completed" (r.released == (r.status == word Status.completed)) <|>
  failedCheck "ck_escrow_release_hash_iff_released" (r.released == r.releaseTransaction.isSome)

/-- What the store has against a party row, given the ones it has. -/
def PartyRow.fault? (existing : List PartyRow) (r : PartyRow) : Option Constraint :=
  missingColumn "escrow_parties" "escrow_id" r.escrow.isNone <|>
  missingColumn "escrow_parties" "user_id" r.user.isNone <|>
  missingColumn "escrow_parties" "role" r.role.isNone <|>
  failedCheck "ck_party_valid_role" ((r.role.bind fun w => (ofWord? w : Option Role)).isSome) <|>
  (if r ∈ existing then
    some (.distinct ["escrow_parties.escrow_id", "escrow_parties.user_id", "escrow_parties.role"])
  else none)

/-- What the store has against a condition row. -/
def ConditionRow.fault? (r : ConditionRow) : Option Constraint :=
  missingColumn "escrow_conditions" "escrow_id" r.escrow.isNone <|>
  missingColumn "escrow_conditions" "description" r.description.isNone

/-- What the store has against an event row, given the ones it has. -/
def EventRow.fault? (existing : List EventRow) (r : EventRow) : Option Constraint :=
  missingColumn "escrow_events" "escrow_id" r.escrow.isNone <|>
  missingColumn "escrow_events" "sequence" r.sequence.isNone <|>
  missingColumn "escrow_events" "event_type" r.type.isNone <|>
  (if existing.any fun e => e.escrow = r.escrow ∧ e.sequence = r.sequence then
    some (.distinct ["escrow_events.escrow_id", "escrow_events.sequence"])
  else none)

theorem EscrowRow.fault?_eq_none_iff (r : EscrowRow) :
    r.fault? = none ↔
      r.title.isSome ∧ amountPresent r.amount = true ∧ r.creator.isSome ∧
      (ofWord? r.status : Option Status).isSome ∧ amountPositive r.amount = true ∧
      r.released = (r.status == word Status.completed) ∧
      r.released = r.releaseTransaction.isSome := by
  unfold fault? missingColumn failedCheck
  cases r.title <;> cases amountPresent r.amount <;> cases r.creator <;>
    cases (ofWord? r.status : Option Status) <;> cases amountPositive r.amount <;>
    cases h : r.released <;> cases h' : (r.status == word Status.completed) <;>
    cases r.releaseTransaction <;> simp

/-! ## Rows in words -/

/-- An escrow row in words. -/
def EscrowRow.summary (r : EscrowRow) (id : Identifier) : String :=
  "<Escrow id=" ++ id.text ++ " status=" ++ r.status ++ " amount=" ++
    ((r.amount.map Decimal.text).getD "None") ++ " " ++ r.asset ++ ">"

/-- A party row in words. -/
def PartyRow.summary (r : PartyRow) : String :=
  "<Party escrow=" ++ ((r.escrow.map Identifier.text).getD "None") ++ " user=" ++
    r.user.getD "None" ++ " role=" ++ r.role.getD "None" ++ ">"

/-- A condition row in words. -/
def ConditionRow.summary (r : ConditionRow) (id : Identifier) : String :=
  "<Condition id=" ++ id.text ++ " escrow=" ++ ((r.escrow.map Identifier.text).getD "None") ++
    " met=" ++ (Json.bool r.met).literal ++ ">"

/-- An event in words. -/
def eventSummary (id type : String) (oldStatus newStatus : Option String) : String :=
  "<EscrowEvent id=" ++ id ++ " type=" ++ type ++ " " ++ oldStatus.getD "None" ++ "->" ++
    newStatus.getD "None" ++ ">"

/-- An event row in words. -/
def EventRow.summary (r : EventRow) (id : Identifier) : String :=
  eventSummary id.text (r.type.getD "None") r.oldStatus r.newStatus

end Custody

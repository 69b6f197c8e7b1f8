import Custody.Failure

/-!
# Reconciliation

A record and the ledger's view of the same escrow are brought to one form and compared field by
field. Amounts are compared as numbers and deadlines as UTC seconds, so that two spellings of one
value are no difference. Nothing here changes either side.

> `mem_tally`: every report is counted once, and the consistent ones in none of the four kinds.
-/

namespace Custody

/-! ## The common form -/

/-- An amount as one side has it: a number, or something that has yet to be read as one. -/
inductive RawAmount where
  | number (d : Decimal)
  | other (v : Json)
deriving Repr

/-- One side of a comparison before its values are brought to the common form. -/
structure RawState where
  status : Json
  amount : RawAmount
  released : Json
  transaction : Json
  deadline : Option Moment
deriving Repr

/-- One side of a comparison. -/
structure Projection where
  status : LooseText
  amount : Decimal
  released : Bool
  transaction : Json
  deadline : Option Moment
deriving Repr

/-- The number that an amount stands for. -/
def RawAmount.toDecimal : RawAmount → Except Failure Decimal
  | .number d => .ok d
  | .other v =>
    match Decimal.ofText v.display with
    | .ok d => .ok d
    | .error f => .error (.decimal f)

/-- A deadline cut to its UTC second. -/
def normalizeMoment : Option Moment → Except Failure (Option Moment)
  | none => .ok none
  | some m =>
    match m.normalize? with
    | some n => .ok (some n)
    | none => .error .outOfRange

/-- A side in the common form. -/
def RawState.project (s : RawState) : Except Failure Projection := do
  let amount ← s.amount.toDecimal
  let deadline ← normalizeMoment s.deadline
  return { status := s.status.spelled, amount := amount, released := s.released.truthy,
           transaction := s.transaction, deadline := deadline }

/-! ## Differences -/

/-- A compared value. -/
inductive FieldValue where
  | json (v : Json)
  | number (d : Decimal)
  | moment (m : Option Moment)
deriving Repr

/-- A field on which the two sides differ. -/
structure Mismatch where
  field : String
  stored : FieldValue
  onLedger : FieldValue
deriving Repr

/-- The entry for a field, when its values differ. -/
def mismatchUnless (agrees : Bool) (field : String) (a b : FieldValue) : List Mismatch :=
  if agrees then [] else [⟨field, a, b⟩]

/-- Every field whose values differ, in the order of the fields. -/
def diff (a b : Projection) : Except Failure (List Mismatch) :=
  match Decimal.equals? a.amount b.amount with
  | none => .error (.decimal .undefinedValue)
  | some sameAmount => .ok (
    mismatchUnless (a.status == b.status) "status"
      (.json (.ofLoose a.status)) (.json (.ofLoose b.status)) ++
    mismatchUnless sameAmount "amount" (.number a.amount) (.number b.amount) ++
    mismatchUnless (a.released == b.released) "is_released"
      (.json (.bool a.released)) (.json (.bool b.released)) ++
    mismatchUnless (a.transaction.equals b.transaction) "release_transaction_hash"
      (.json a.transaction) (.json b.transaction) ++
    mismatchUnless (a.deadline == b.deadline) "expires_at" (.moment a.deadline) (.moment b.deadline))

/-! ## Reports -/

/-- The outcome of checking one escrow. -/
structure Report where
  escrow : String
  consistent : Bool
  mismatches : List Mismatch
  missingInStore : Bool
  missingOnLedger : Bool
  error : Option String
deriving Repr

namespace Report

/-- Both sides agree. -/
def agreeing (escrow : String) : Report := ⟨escrow, true, [], false, false, none⟩

/-- The sides differ on some fields. -/
def differing (escrow : String) (ms : List Mismatch) : Report := ⟨escrow, false, ms, false, false, none⟩

/-- The store has no such escrow. -/
def notInStore (escrow : String) : Report := ⟨escrow, false, [], true, false, none⟩

/-- The ledger has no such escrow. -/
def notOnLedger (escrow : String) : Report := ⟨escrow, false, [], false, true, none⟩

/-- The check could not be made. -/
def failed (escrow error : String) : Report := ⟨escrow, false, [], false, false, some error⟩

end Report

/-- The kinds of trouble a report can tell of. -/
inductive Trouble where
  | errored | missingInStore | missingOnLedger | inconsistent
deriving DecidableEq, Repr

/-- The trouble that a report tells of; an error outweighs the rest, and a missing side a
difference. -/
def Report.trouble? (r : Report) : Option Trouble :=
  if r.error.isSome then some .errored
  else if r.missingInStore then some .missingInStore
  else if r.missingOnLedger then some .missingOnLedger
  else if !r.consistent then some .inconsistent
  else none

/-- The tally of a check. -/
structure Tally where
  checked : Nat
  inconsistent : Nat
  missingInStore : Nat
  missingOnLedger : Nat
  errored : Nat
deriving DecidableEq, Repr

/-- How many reports tell of each kind of trouble. -/
def Tally.ofReports (rs : List Report) : Tally :=
  let count (t : Trouble) : Nat := (rs.filter fun r => r.trouble? = some t).length
  { checked := rs.length
    inconsistent := count .inconsistent
    missingInStore := count .missingInStore
    missingOnLedger := count .missingOnLedger
    errored := count .errored }

/-- The outcome of a check of several escrows. -/
structure CheckResult where
  reports : List Report
  summary : Tally
deriving Repr

/-- The reports with their tally. -/
def CheckResult.ofReports (rs : List Report) : CheckResult := ⟨rs, Tally.ofReports rs⟩

/-- Every report is counted in exactly one place: under its trouble, or among the consistent
ones. -/
theorem mem_tally (rs : List Report) :
    (Tally.ofReports rs).inconsistent + (Tally.ofReports rs).missingInStore +
      (Tally.ofReports rs).missingOnLedger + (Tally.ofReports rs).errored +
      (rs.filter fun r => r.trouble? = none).length = (Tally.ofReports rs).checked := by
  induction rs with
  | nil => rfl
  | cons r rest ih =>
    simp only [Tally.ofReports, List.length_cons] at ih ⊢
    cases h : r.trouble? with
    | none => simp [h]; omega
    | some t => cases t <;> simp [h] <;> omega

/-! ## As JSON -/

/-- How numbers and moments of a report are written. -/
structure ReportStyle where
  moment : Moment → String

/-- Moments in standard form. -/
def ReportStyle.plain : ReportStyle := ⟨Moment.isoText⟩

/-- Moments as in responses. -/
def ReportStyle.response : ReportStyle := ⟨Moment.responseText⟩

/-- A compared value as JSON. -/
def FieldValue.toJson (style : ReportStyle) : FieldValue → Json
  | .json v => v
  | .number d => .text d.text
  | .moment m => Json.ofText? (m.map style.moment)

/-- A difference as JSON. -/
def Mismatch.toJson (style : ReportStyle) (m : Mismatch) : Json :=
  .object [("field_name", .text m.field), ("db_value", m.stored.toJson style),
    ("onchain_value", m.onLedger.toJson style)]

/-- A report as JSON. -/
def Report.toJson (style : ReportStyle) (r : Report) : Json :=
  .object [("escrow_id", .text r.escrow), ("is_consistent", .bool r.consistent),
    ("fields_mismatched", .list (r.mismatches.map (Mismatch.toJson style))),
    ("missing_in_db", .bool r.missingInStore), ("missing_on_chain", .bool r.missingOnLedger),
    ("error", Json.ofText? r.error)]

/-- The members of a tally. -/
def Tally.members (t : Tally) : List (String × Json) :=
  [("total_checked", .int t.checked), ("total_inconsistent", .int t.inconsistent),
    ("total_missing_in_db", .int t.missingInStore),
    ("total_missing_on_chain", .int t.missingOnLedger), ("total_errored", .int t.errored)]

/-- The outcome of a check as JSON. -/
def CheckResult.toJson (style : ReportStyle) (c : CheckResult) : Json :=
  .object [("reports", .list (c.reports.map (Report.toJson style))),
    ("summary", .object c.summary.members)]

/-- An amount as one side has it, as JSON. -/
def RawAmount.toJson : RawAmount → Json
  | .number d => .text d.text
  | .other v => v

/-- One side as JSON, with the escrow that it is about. -/
def RawState.toJson (escrow : String) (s : RawState) : Json :=
  .object [("escrow_id", .text escrow), ("status", s.status), ("amount", s.amount.toJson),
    ("is_released", s.released), ("release_transaction_hash", s.transaction),
    ("expires_at", Json.ofText? (s.deadline.map Moment.isoText))]

/-- A projection as JSON. -/
def Projection.toJson (p : Projection) : Json :=
  .object [("status", .ofLoose p.status), ("amount", .text p.amount.text),
    ("is_released", .bool p.released), ("release_transaction_hash", p.transaction),
    ("expires_at", Json.ofText? (p.deadline.map Moment.isoText))]

end Custody

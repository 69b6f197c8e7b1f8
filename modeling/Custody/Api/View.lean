import Custody.Service

/-!
# Views

What responses show of records. Amounts are texts, moments are UTC. An amount that is no finite
number, event data that are no object, and metadata with broken texts or too many levels cannot be
shown.

> `escrowView_of_isFinite`: an escrow with a finite amount and without conditions can be shown.
-/

namespace Custody.Api

/-- The most levels that a value of any shape may have to be shown. -/
def shownLevels : Nat := 254

/-- A view in which values of any shape stand below some levels of its own; numbers that are not finite
are shown as null. -/
def shownBelow (levels : Nat) (v : Json) : Except Failure Json :=
  if levels + shownLevels < v.depth then .error (.value .tooNested)
  else if v.finite.isPortable then .ok v.finite
  else .error (.value .unportable)

/-- A condition by itself. -/
def conditionMembers (c : Condition) : Members :=
  [("id", .text c.id.text), ("description", .text c.description), ("type", .text (word c.type)),
    ("metadata", ((c.metadata.map Json.object).getD .null).finite), ("is_met", .bool c.met),
    ("met_at", stampJson c.metAt), ("met_by_user_id", Json.ofText? c.metBy)]

/-- A condition and the escrow that it belongs to. -/
def conditionView (c : Condition) : Except Failure Json :=
  shownBelow 2 (.object (("escrow_id", .text c.escrow.text) :: conditionMembers c))

/-- A party. -/
def partyView (p : Party) : Json :=
  .object [("user_id", .text p.user), ("role", .text (word p.role))]

/-- An escrow by itself. -/
def escrowMembers (e : Escrow) : Members :=
  [("id", .text e.id.text), ("title", .text e.title), ("description", Json.ofText? e.description),
    ("amount", .text e.amount.text), ("asset", .text e.asset), ("type", .text (word e.type)),
    ("status", .text (word e.status)), ("creator_id", .text e.creator),
    ("is_released", .bool e.released),
    ("release_transaction_hash", Json.ofText? e.releaseTransaction),
    ("funding_transaction_hash", Json.ofText? e.fundingTransaction),
    ("expires_at", stampJson e.deadline), ("created_at", stampJson (some e.createdAt)),
    ("updated_at", stampJson (some e.updatedAt))]

/-- An escrow with its parties and its conditions. -/
def escrowView (s : Store) (e : Escrow) : Except Failure Json :=
  if e.amount.isFinite then do
    let cs ← (s.conditionsOf e.id).mapM conditionView
    return .object (escrowMembers e ++ [("parties", .list (e.parties.map partyView)),
      ("conditions", .list cs)])
  else .error (.request [⟨.finiteNumber, [.key "amount"]⟩])

/-- A page of escrows. -/
def pageView (s : Store) (q : ListQuery) (p : Page) : Except Failure Json := do
  let es ← p.items.mapM (escrowView s)
  return .object [("data", .list es), ("total", .int p.total), ("page", .int q.page),
    ("limit", .int q.limit)]

/-- An entry of the audit log by itself. -/
def eventMembers (e : Event) : Members :=
  [("sequence", .int e.sequence), ("event_type", .text (word e.type)), ("actor_id", .text e.actor),
    ("old_status", Json.ofText? e.oldStatus), ("new_status", Json.ofText? e.newStatus),
    ("data", e.data.toJson), ("ip_address", Json.ofText? e.address),
    ("created_at", stampJson (some e.recordedAt))]

/-- An entry of the audit log and the escrow that it is about. -/
def eventView (e : Event) : Except Failure Json :=
  let shown : Json :=
    .object (("id", .text e.id.text) :: ("escrow_id", .text e.escrow.text) :: eventMembers e)
  match e.data.toJson with
  | .object _ => shownBelow 2 shown
  | .null => .ok shown
  | _ => .error (.request [⟨.objectType, [.key "data"]⟩])

/-- A line of an overview. -/
def itemView (i : OverviewItem) : Json :=
  let e := i.escrow
  .object [("escrow_id", .text e.id.text), ("depositor", .text e.creator),
    ("recipient", Json.ofText? e.recipient?), ("token", .text e.asset),
    ("total_amount", .text e.amount.text), ("total_released", .text i.released.text),
    ("remaining_amount", .text i.remaining.text), ("status", .text (word e.status)),
    ("deadline", stampJson e.deadline), ("created_at", stampJson (some e.createdAt)),
    ("updated_at", stampJson (some e.updatedAt))]

/-- A page of an overview. -/
def overviewView (o : Overview) : Json :=
  .object [("data", .list (o.items.map itemView)), ("total_items", .int o.total),
    ("total_pages", .int o.pages), ("page", .int o.page), ("page_size", .int o.pageSize)]

/-- The outcome of a consistency check. -/
def checkView (r : CheckResult) : Except Failure Json := shownBelow 5 (r.toJson ReportStyle.response)

theorem escrowView_of_isFinite {s : Store} {e : Escrow} (h : e.amount.isFinite = true)
    (hc : s.conditionsOf e.id = []) : (escrowView s e).isOk = true := by
  simp [escrowView, h, hc, pure, Except.pure, bind, Except.bind, Except.isOk, Except.toBool]

end Custody.Api

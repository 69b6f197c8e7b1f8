import Custody.Service.Writes
import Custody.Policy
import Custody.Reconciliation

/-!
# Plans

What an operation on an escrow comes to, judged from the record and its conditions alone. A plan
writes something first; then it ends well, ends in a refusal, or pays the seller out and goes on
with the transaction that the ledger answers. Each operation pays out at most once, and nothing is
kept of a plan that ends in a refusal.

    update      PENDING, by the buyer
    activate    PENDING → ACTIVE, by the buyer
    dispute     ACTIVE → DISPUTED, by the buyer or the seller
    release     ACTIVE → COMPLETED, by the creator, or when no condition is open
    cancel      PENDING, ACTIVE or DISPUTED → CANCELLED
    expire      PENDING or ACTIVE → CANCELLED, once the deadline is over
    resolve     DISPUTED → COMPLETED or CANCELLED, by an arbitrator
    confirm     ACTIVE, by any party; the last open condition releases

> `planPayout_of_active`: an active escrow with a seller is paid out, and nothing else can stop a
> release whose conditions are all met (`planRelease_of_active`).
-/

namespace Custody

/-- Who asks for an operation, and from which address. -/
structure Caller where
  user : String
  address : Option String
deriving DecidableEq, Repr

/-- A settlement that is asked for. -/
structure SettleRequest where
  escrow : Identifier
  beneficiary : String
deriving DecidableEq, Repr

/-- What comes after the first writes of a plan. -/
inductive Next where
  | finish
  | refuse (f : Failure)
  | payOut (r : SettleRequest) (paid : String → Writes)

/-- What an operation comes to. -/
structure Plan where
  writes : Writes
  next : Next

namespace Plan

/-- A plan that only refuses. -/
def refuse (f : Failure) : Plan := ⟨Writes.nothing, .refuse f⟩

/-- A plan that writes something, or refuses. -/
def ofWrites : Except Failure Writes → Plan
  | .ok w => ⟨w, .finish⟩
  | .error f => refuse f

/-- A plan after other writes. -/
def after (w : Writes) (p : Plan) : Plan := ⟨w.followedBy p.writes, p.next⟩

/-- A plan with an entry that closes the log when all goes well. -/
def closing (entry : LogEntry) (p : Plan) : Plan :=
  match p.next with
  | .payOut r paid =>
    ⟨p.writes, .payOut r fun t => (paid t).followedBy { closing := [entry] }⟩
  | _ => ⟨p.writes.followedBy { closing := [entry] }, p.next⟩

end Plan

/-! ## Parts -/

/-- A refusal of the domain as a failure. -/
def domain {α : Type} : Except EscrowError α → Except Failure α
  | .ok a => .ok a
  | .error e => .error (.escrow e)

/-- The status that an escrow is brought to, where the lifecycle has such a step. -/
def move (e : Escrow) (target : Status) : Except Failure Status :=
  match advance e.status target with
  | .ok s => .ok s
  | .error f => .error (.escrow (.invalidTransition (word f.current) (word f.attempted)))

/-- Whether the caller may do this to the escrow. -/
def permit (e : Escrow) (actor : String) (a : Action) : Except Failure Unit :=
  domain (authorize e.status e.parties actor a)

/-- A log entry about an escrow. -/
def about (escrow : Identifier) (level : LogLevel) (event : String) (fields : Members) : LogEntry :=
  ⟨level, event, ("escrow_id", .text escrow.text) :: fields⟩

/-- The new terms that differ from the terms of a record. A moment with a distance from UTC differs
from every recorded one, for the record has none. -/
def changesOf (e : Escrow) (r : UpdateRequest) : List Change :=
  (match r.title.join with
    | some t => if t = e.title then [] else [.title t]
    | none => []) ++
  (match r.description with
    | some d => if d = e.description then [] else [.description d]
    | none => []) ++
  (match r.deadline with
    | some m => if m = e.deadline then [] else [.deadline m]
    | none => [])

/-- The terms that changes touch, in alphabetical order. -/
def changedFields (cs : List Change) : Json :=
  .list (((cs.map fun c => c.entry.1).mergeSort fun a b => a ≤ b).map .text)

/-! ## Terms, activation and disputes -/

/-- New terms. Terms that are as they were make no event. -/
def planUpdate (r : UpdateRequest) (by' : Caller) (e : Escrow) : Except Failure Writes := do
  permit e by'.user .update
  let cs := changesOf e r
  if cs = [] then return Writes.nothing
  return {
    patch := some (.terms cs)
    drafts := [⟨.updated, by'.user, some e.status, some e.status, .updated cs, by'.address⟩]
    announcement := some ⟨.updated, [("changes", .json (changedFields cs))]⟩
    closing := [about e.id .info "escrow.updated" [("fields", changedFields cs)]] }

/-- The funds have arrived in a transaction. -/
def planActivation (transaction : Option String) (by' : Caller) (e : Escrow) :
    Except Failure Writes := do
  permit e by'.user .activate
  let s ← move e .active
  return {
    patch := some (.activation transaction)
    drafts := [⟨.activated, by'.user, some e.status, some s, .activated transaction, by'.address⟩]
    announcement := some ⟨.activated, []⟩
    closing := [about e.id .info "escrow.activated" []] }

/-- A dispute stops everything but its resolution. -/
def planDispute (reason : Option String) (by' : Caller) (e : Escrow) : Except Failure Writes := do
  permit e by'.user .raiseDispute
  let s ← move e .disputed
  return {
    patch := some .dispute
    drafts := [⟨.disputed, by'.user, some e.status, some s, .disputed reason, by'.address⟩]
    announcement := some ⟨.disputed,
      [("raised_by", .json (.text by'.user)), ("reason", .json (Json.ofText? reason))]⟩
    closing := [about e.id .warning "escrow.disputed" [("raised_by", .text by'.user)]] }

/-! ## Release -/

/-- What is written once the seller has been paid. -/
def paidWrites (e : Escrow) (basis : ReleaseBasis) (by' : Caller) (beneficiary transaction : String) :
    Writes :=
  { patch := some (.completion transaction)
    drafts := [⟨.completed, by'.user, some e.status, some .completed,
      .completed basis beneficiary transaction, by'.address⟩]
    announcement := some ⟨.released,
      [("beneficiary", .json (.text beneficiary)), ("tx_hash", .json (.text transaction))]⟩
    log := [about e.id .info "escrow.released"
      [("beneficiary", .text beneficiary), ("amount", .text e.amount.text),
        ("tx_hash", .text transaction)]] }

/-- Paying the seller. -/
def planPayout (e : Escrow) (basis : ReleaseBasis) (by' : Caller) : Plan :=
  match move e .completed with
  | .error f => .refuse f
  | .ok _ =>
    match e.recipient? with
    | none => .refuse (.escrow (.invalidState (.noSeller e.status)))
    | some b =>
      ⟨{ log := [about e.id .info "settlement.ledger_call" [("beneficiary", .text b)]] },
        .payOut ⟨e.id, b⟩ (paidWrites e basis by' b)⟩

/-- The conditions that are still open. -/
def openConditions (cs : List Condition) : List Condition := cs.filter fun c => !c.met

/-- Whether a release may go on: on the creator's word, or because no condition is open. -/
def permitRelease (e : Escrow) (cs : List Condition) (manual : Bool) (by' : Caller) :
    Except Failure Unit :=
  if manual then
    if e.creator = by'.user then permit e by'.user .manualRelease
    else .error (.escrow (.forbidden by'.user (word Action.manualRelease)
      (some "Only the escrow creator can release funds")))
  else do
    permit e systemActor .autoRelease
    if openConditions cs = [] then return ()
    else throw (.escrow (.invalidState (.unmet (openConditions cs).length e.status)))

/-- A release. What has been released already stays as it is. -/
def planRelease (manual : Bool) (by' : Caller) (e : Escrow) (cs : List Condition) : Plan :=
  if e.status = .completed ∨ e.released then
    ⟨{ log := [about e.id .info "settlement.already_released"
        [("tx_hash", Json.ofText? e.releaseTransaction)]] }, .finish⟩
  else if e.status ≠ .active then .refuse (.escrow (.invalidState (.notActive e.status)))
  else match permitRelease e cs manual by' with
    | .error f => .refuse f
    | .ok () => planPayout e (.request manual) by'

/-! ## Cancellation -/

/-- Leaving an escrow without paying anyone. -/
def cancelWrites (e : Escrow) (type : EventType) (notice : Notice) (data : EventData)
    (reason : Option String) (by' : Caller) : Except Failure Writes := do
  let s ← move e .cancelled
  return {
    patch := some .cancellation
    drafts := [⟨type, by'.user, some e.status, some s, data, by'.address⟩]
    announcement := some ⟨notice, [("reason", .json (Json.ofText? reason))]⟩
    log := [about e.id .info "escrow.cancelled"
      [("previous_status", .text (word e.status)), ("event_type", .text (word type))]] }

/-- A cancellation. -/
def planCancellation (reason : Option String) (by' : Caller) (e : Escrow) :
    Except Failure Writes := do
  permit e by'.user .cancel
  cancelWrites e .cancelled .cancelled (.cancelled none reason e.status) reason by'

/-- The text, unless there is none or an empty one. -/
def reasonOr (fallback : String) (reason : Option String) : String :=
  match reason with
  | some r => if r = "" then fallback else r
  | none => fallback

/-- The deadline is over. It is judged by whole seconds of UTC. -/
def planExpiry (reason : Option String) (now : Moment) (by' : Caller) (e : Escrow) :
    Except Failure Writes := do
  permit e by'.user .expire
  match ← normalizeMoment e.deadline with
  | none => throw (.escrow (.invalidState (.noDeadline e.status)))
  | some d =>
    let n ← normalizeMoment (some now)
    if n.any fun n => d.instant < n.instant then
      let r := reasonOr "Escrow deadline passed" reason
      cancelWrites e .expired .expired (.expired r d e.status) (some r) by'
    else throw (.escrow (.invalidState (.deadlineAhead d e.status)))

/-! ## Resolution -/

/-- The end of a dispute. -/
def planResolution (resolution : Except UnknownWord Resolution) (note : Option String)
    (by' : Caller) (e : Escrow) : Plan :=
  match permit e by'.user .resolveDispute with
  | .error f => .refuse f
  | .ok () =>
    match resolution with
    | .error u => .refuse (.value (.word u))
    | .ok r =>
      Plan.closing (about e.id .info "escrow.dispute_resolved"
          [("resolution", .text (word r)), ("arbitrator", .text by'.user)])
        (match r with
          | .release => planPayout e (.decision r note) by'
          | .refund =>
            let reason := reasonOr "Dispute resolved with refund" note
            .ofWrites (cancelWrites e .cancelled .cancelled
              (.cancelled (some (r, note)) (some reason) e.status) (some reason) by'))

/-! ## Confirmation -/

/-- The entry of a confirmation that came before. -/
def alreadyMetLog (condition : Identifier) : LogEntry :=
  .info "condition.already_met" [("condition_id", .text condition.text)]

/-- A condition is met. A condition that was met before stays as it is; the last open one releases
the escrow in its creator's name. -/
def planConfirmation (condition : Identifier) (by' : Caller) (e : Escrow) (cs : List Condition) :
    Plan :=
  match cs.find? fun c => c.id = condition with
  | none => .refuse (.escrow (.conditionNotFound condition.text))
  | some c =>
    if c.met then ⟨{ log := [alreadyMetLog condition] }, .finish⟩
    else match permit e by'.user .confirmCondition with
      | .error f => .refuse f
      | .ok () =>
        let w : Writes :=
          { met := some (condition, by'.user)
            drafts := [⟨.conditionMet, by'.user, some e.status, some e.status,
              .conditionMet condition c.description, by'.address⟩]
            log := [about e.id .info "condition.met"
              [("condition_id", .text condition.text), ("met_by", .text by'.user)]] }
        let rest := cs.map fun c => if c.id = condition then { c with met := true } else c
        if openConditions rest = [] then
          Plan.after (w.followedBy { log := [about e.id .info "condition.all_met" []] })
            (planRelease false ⟨e.creator, by'.address⟩ e rest)
        else ⟨w, .finish⟩

/-! ## Tasks -/

/-- What can be asked for an escrow that is there. -/
inductive Task where
  | update (terms : UpdateRequest)
  | activate (transaction : Option String)
  | dispute (reason : Option String)
  | release (manual : Bool)
  | cancel (reason : Option String)
  | expire (reason : Option String) (now : Option Moment)
  | resolve (resolution : Except UnknownWord Resolution) (note : Option String)

/-- The plan of a task at a time of the clock. -/
def Task.plan (now : Moment) (by' : Caller) (e : Escrow) (cs : List Condition) : Task → Plan
  | .update r => .ofWrites (planUpdate r by' e)
  | .activate t => .ofWrites (planActivation t by' e)
  | .dispute r => .ofWrites (planDispute r by' e)
  | .release manual => planRelease manual by' e cs
  | .cancel r => .ofWrites (planCancellation r by' e)
  | .expire r n => .ofWrites (planExpiry r (n.getD now) by' e)
  | .resolve r note => planResolution r note by' e

/-! ## Laws -/

/-- A release by the conditions goes straight to the payment on an active escrow without an open
condition. -/
theorem planRelease_of_active {e : Escrow} {cs : List Condition} {by' : Caller}
    (hs : e.status = .active) (hr : e.released = false) (ho : openConditions cs = []) :
    planRelease false by' e cs = planPayout e (.request false) by' := by
  simp [planRelease, permitRelease, permit, domain, authorize, verdict, permission,
    Verdict.enforce, hs, hr, ho, bind, Except.bind, pure, Except.pure]

/-- Paying out needs a step to the end and a seller. -/
theorem planPayout_of_active {e : Escrow} {basis : ReleaseBasis} {by' : Caller} {b : String}
    (hs : e.status = .active) (hb : e.recipient? = some b) :
    (planPayout e basis by').next = .payOut ⟨e.id, b⟩ (paidWrites e basis by' b) := by
  simp [planPayout, move, advance, Status.successors, hs, hb]

end Custody

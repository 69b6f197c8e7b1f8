import Custody.Service.Operation
import Custody.Service.Consistency
import Custody.Service.Inquiry
import Custody.Settings

/-!
# The service

Everything together: a clock, the records, a ledger, a dispatcher of notifications, the locks, and
the settings of the deployment. An operation runs against these, and its effects are what others get
to see of it: notifications, settlements and log entries. What the last request bound to the log goes
with every entry.

> `perform_ledger_of_asked_none`: an operation that asks for no settlement leaves the ledger alone.
-/

namespace Custody

/-- The service at a moment of its clock, an instant of UTC. -/
structure Service where
  clock : Int
  store : Store
  counters : Counters
  ledger : SimulatedLedger
  dispatcher : Dispatcher
  brokenDispatcher : Option String
  database : Option String
  lease : Option Lease
  settings : Settings
  context : Members

/-- What others get to see of an operation. -/
structure Effects where
  sent : List Notification
  queued : List (String × String)
  settled : List Settlement
  log : List LogEntry
deriving Repr, Inhabited

namespace Effects

/-- Nothing is to be seen. -/
def nothing : Effects := ⟨[], [], [], []⟩

/-- Log entries alone. -/
def ofLog (es : List LogEntry) : Effects := { nothing with log := es }

/-- Effects one after another. -/
def followedBy (a b : Effects) : Effects :=
  ⟨a.sent ++ b.sent, a.queued ++ b.queued, a.settled ++ b.settled, a.log ++ b.log⟩

end Effects

namespace Service

/-- A service without records. -/
def start (clock : Int) (settings : Settings) (dispatcher : Dispatcher) (lease : Option Lease) :
    Service :=
  { clock := clock, store := Store.empty, counters := ⟨0, 0, 0⟩, ledger := SimulatedLedger.empty
    dispatcher := dispatcher, brokenDispatcher := none, database := none, lease := lease
    settings := settings, context := [] }

/-- What the clock shows. -/
def now (v : Service) : Moment := Moment.utc v.clock

/-- The answer of the ledger to a settlement. -/
def ask (v : Service) (r : SettleRequest) : LedgerAnswer :=
  match v.ledger.answer with
  | .ok t => ⟨.ok t, [SimulatedLedger.settlementLog r.escrow.text r.beneficiary t]⟩
  | .error f => ⟨.error f, []⟩

/-- What surrounds an operation of the service. -/
def surroundings (v : Service) : Surroundings :=
  { now := v.now, defaultAsset := v.settings.defaultAsset, database := v.database
    lease := v.lease, lockWait := .real v.settings.lockWait, ask := v.ask }

/-- The ledger after an operation. -/
def ledgerAfter (l : SimulatedLedger) : Option SettleRequest → SimulatedLedger
  | some r => l.settle r.escrow.text r.beneficiary
  | none => l

/-- Effects whose entries carry what is bound to the log. -/
def mark (v : Service) (fx : Effects) : Effects :=
  { fx with log := fx.log.map (LogEntry.carrying v.context) }

/-- Carries out an operation whose caller saw the records `seen` when it began. -/
def performSeeing (v : Service) (seen : Store) (by' : Caller) (op : Operation) :
    Except Failure Answer × Service × Effects :=
  let o := op.run v.surroundings by' seen v.store v.counters
  let ledger := ledgerAfter v.ledger o.asked
  let d := v.dispatcher.send v.brokenDispatcher v.now o.announced
  (o.result,
    { v with store := o.store, counters := o.counters, ledger := ledger },
    { sent := d.sent, queued := d.queued
      settled := ledger.settlements.drop v.ledger.settlements.length
      log := o.log ++ o.closing ++ d.log })

/-- Carries out an operation. -/
def perform (v : Service) (by' : Caller) (op : Operation) :
    Except Failure Answer × Service × Effects :=
  v.performSeeing v.store by' op

/-- Reads something. -/
def read {α : Type} (v : Service) (answer : Except Failure α) : Except Failure α :=
  reading v.database answer

/-- Checks escrows against the ledger. -/
def check (v : Service) (ids : List Identifier) : Audit := audit v.database v.store v.ledger ids

/-- Checks the escrows that changed last, for a number of rounds. -/
def checkRounds (v : Service) (interval : Json) (most : Int) (rounds : Nat) :
    List (List Identifier) × List LogEntry :=
  let r := auditRound v.database v.store v.ledger most
  (List.replicate rounds r.1,
    schedulerLog interval most :: (List.replicate rounds r.2).flatten)

/-- Adds an entry to the audit log of an escrow. An empty status is none. -/
def recordEvent (v : Service) (escrow : Identifier) (type : EventType) (actor : String)
    (oldStatus newStatus : Option String) (data : Json) : Except Failure Event × Service :=
  let e : Event :=
    { id := Identifier.event (v.counters.events + 1), escrow := escrow
      sequence := v.store.nextSequence escrow, type := type, actor := actor
      oldStatus := oldStatus.filter (· ≠ ""), newStatus := newStatus.filter (· ≠ "")
      data := .other data, address := none, recordedAt := v.now }
  match v.database with
  | some f => (.error (.breakdown f), v)
  | none =>
    (.ok e, { v with
      store := v.store.append e
      counters := { v.counters with events := v.counters.events + 1 } })

/-- Adds a condition to an escrow, whether or not the escrow is there. -/
def addCondition (v : Service) (escrow : Identifier) (c : ConditionInput) :
    Except Failure Condition × Service :=
  let k := c.numbered escrow (v.counters.conditions + 1)
  let v := { v with counters := { v.counters with conditions := v.counters.conditions + 1 } }
  match v.database with
  | some f => (.error (.breakdown f), v)
  | none =>
    (.ok k, { v with store := { v.store with conditions := v.store.conditions ++ [k] } })

/-- An operation that asks for no settlement leaves the ledger alone. -/
theorem perform_ledger_of_asked_none {v : Service} {by' : Caller} {op : Operation}
    (h : (op.run v.surroundings by' v.store v.store v.counters).asked = none) :
    (v.perform by' op).2.1.ledger = v.ledger := by
  simp [perform, performSeeing, h, ledgerAfter]

/-- An operation that fails leaves the records as they were. -/
theorem perform_store_of_error {v : Service} {by' : Caller} {op : Operation} {f : Failure}
    (h : (v.perform by' op).1 = .error f) : (v.perform by' op).2.1.store = v.store := by
  simp only [perform, performSeeing] at h ⊢
  exact Operation.run_store_of_error h

end Service

end Custody

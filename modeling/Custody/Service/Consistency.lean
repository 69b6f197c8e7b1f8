import Custody.Ledger.Simulated
import Custody.Store.Listing

/-!
# Consistency

Records are compared with the ledger's views. Each escrow has its own report, and whatever goes
wrong on the way stays in it: the store cannot be read, the ledger cannot be read, or the two sides
cannot be compared. Neither side is changed.

> `length_reports`: there is one report for each escrow that was asked for.
-/

namespace Custody

/-- A record as a side of a comparison. -/
def Escrow.state (e : Escrow) : RawState :=
  { status := .text (word e.status), amount := .number e.amount, released := .bool e.released
    transaction := Json.ofText? e.releaseTransaction, deadline := e.deadline }

/-- The check of one escrow: a report, or the failure that stopped it; the log entries; and whether
the ledger was asked. -/
structure Check where
  report : Except Failure Report
  log : List LogEntry
  asked : Bool

namespace Check

/-- An entry of a check. -/
def entry (level : LogLevel) (event id : String) (fields : Members) : LogEntry :=
  ⟨level, "consistency." ++ event, ("escrow_id", .text id) :: fields⟩

/-- The local side, when there is a record. -/
def localSide (database : Option String) (s : Store) (id : Identifier) :
    Except Failure (Option Projection) :=
  match database with
  | some e => .error (.breakdown e)
  | none =>
    match s.escrow? id with
    | none => .ok none
    | some e => e.state.project.map some

/-- Compares the record with a view. -/
def compareWith (id : String) (p : Projection) (view : RawState) : Check :=
  match (do let q ← view.project; diff p q : Except Failure (List Mismatch)) with
  | .error f => ⟨.error f, [], true⟩
  | .ok [] => ⟨.ok (.agreeing id), [], true⟩
  | .ok ms =>
    ⟨.ok (.differing id ms),
      [entry .warning "mismatch" id [("fields", .list (ms.map fun m => .text m.field))]], true⟩

/-- Checks one escrow. -/
def ofEscrow (database : Option String) (s : Store) (l : SimulatedLedger) (i : Identifier) : Check :=
  let id := i.text
  match localSide database s i with
  | .error f =>
    ⟨.ok (.failed id ("Database read failed: " ++ f.message)),
      [entry .error "db_read_failed" id [("error", .text f.message)]], false⟩
  | .ok none => ⟨.ok (.notInStore id), [entry .warning "missing_in_db" id []], false⟩
  | .ok (some p) =>
    match l.fetch id with
    | .ok view => compareWith id p view
    | .error (.escrow (.ledger (.unknownEscrow _))) =>
      ⟨.ok (.notOnLedger id), [entry .warning "missing_on_chain" id []], true⟩
    | .error f =>
      ⟨.ok (.failed id ("Ledger read failed: " ++ f.message)),
        [entry .error "ledger_read_failed" id [("error", .text f.message)]], true⟩

/-- The report of a check; a check that was stopped is an error. -/
def settle (i : Identifier) (c : Check) : Report :=
  match c.report with
  | .ok r => r
  | .error f => .failed i.text f.message

/-- The entry of a check that was stopped. -/
def crashLog (i : Identifier) (c : Check) : List LogEntry :=
  match c.report with
  | .ok _ => []
  | .error f => [entry .error "check_crashed" i.text [("error", .text f.message)]]

end Check

/-- The outcome of checking several escrows, with the log and the escrows that the ledger was asked
for. -/
structure Audit where
  result : CheckResult
  log : List LogEntry
  asked : List Identifier

/-- Checks several escrows. -/
def audit (database : Option String) (s : Store) (l : SimulatedLedger) (ids : List Identifier) :
    Audit :=
  let checks := ids.map fun i => (i, Check.ofEscrow database s l i)
  let result := CheckResult.ofReports (checks.map fun (i, c) => c.settle i)
  { result := result
    log := checks.flatMap (fun (_, c) => c.log) ++ checks.flatMap (fun (i, c) => c.crashLog i) ++
      [.info "consistency.batch_checked" result.summary.members]
    asked := (checks.filter fun (_, c) => c.asked).map (·.1) }

/-- There is one report for each escrow that was asked for. -/
theorem length_reports (database : Option String) (s : Store) (l : SimulatedLedger)
    (ids : List Identifier) : (audit database s l ids).result.reports.length = ids.length := by
  simp [audit, CheckResult.ofReports]

/-! ## Regular checks -/

/-- The entry at the start of regular checks. -/
def schedulerLog (interval : Json) (most : Int) : LogEntry :=
  .info "consistency.scheduler_started" [("interval", interval), ("batch_size", .int most)]

/-- One round of regular checks: the escrows that changed last are checked. The ledger was asked
for the first part of the answer. -/
def auditRound (database : Option String) (s : Store) (l : SimulatedLedger) (most : Int) :
    List Identifier × List LogEntry :=
  let ids : Except Failure (List Identifier) := match database with
    | some e => .error (.breakdown e)
    | none => s.recent most
  match ids with
  | .error f => ([], [.error "consistency.scheduled_run_failed" [("error", .text f.message)]])
  | .ok [] => ([], [])
  | .ok ids => let a := audit database s l ids; (a.asked, a.log)

end Custody

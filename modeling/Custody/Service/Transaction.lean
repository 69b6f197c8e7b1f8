import Custody.Service.Plan
import Custody.Lock.Leased

/-!
# Transactions

A plan is carried out in a transaction while the lock of its escrow is held. The ledger is asked at
most once, in the middle; the writes are applied when everything before them went well. Of a
transaction that fails nothing is kept in the store. What stays is what cannot be taken back: log
entries, the numbers of identifiers that were used, and the question to the ledger.

> `carryOut_store_of_error`: a transaction that fails leaves the store as it was.
> `carryOut_announced_of_error`: nor does it notify anyone.
-/

namespace Custody

/-- How many escrows, conditions and events have been numbered. -/
structure Counters where
  escrows : Nat
  conditions : Nat
  events : Nat
deriving DecidableEq, Repr, Inhabited

/-- What a ledger answers to a settlement, and what it writes into the log meanwhile. -/
structure LedgerAnswer where
  result : Except Failure String
  log : List LogEntry

/-- What surrounds a piece of work: the time, the choices of the deployment, a store and a lock
that may be out of order, and the answers of the ledger. -/
structure Surroundings where
  now : Moment
  defaultAsset : String
  database : Option String
  lease : Option Lease
  lockWait : Json
  ask : SettleRequest → LedgerAnswer

/-- What is left of a piece of work. `closing` are the log entries that follow when the lock is
free again. -/
structure Outcome (α : Type) where
  result : Except Failure α
  store : Store
  counters : Counters
  log : List LogEntry
  closing : List LogEntry
  asked : Option SettleRequest
  announced : Option Notification

namespace Outcome

/-- A failure before anything was done. -/
def refused {α : Type} (s : Store) (c : Counters) (log : List LogEntry) (f : Failure) : Outcome α :=
  ⟨.error f, s, c, log, [], none, none⟩

/-- An answer that needs no work. -/
def settled {α : Type} (s : Store) (c : Counters) (log : List LogEntry) (a : α) : Outcome α :=
  ⟨.ok a, s, c, log, [], none, none⟩

/-- The outcome with its result in another form. -/
def mapResult {α β : Type} (f : α → β) (o : Outcome α) : Outcome β :=
  ⟨o.result.map f, o.store, o.counters, o.log, o.closing, o.asked, o.announced⟩

end Outcome

/-! ## Plans -/

/-- What a plan has come to when the ledger, if it was asked, has answered. -/
structure Conclusion where
  writes : Writes
  verdict : Except Failure Unit
  asked : Option SettleRequest

/-- The entry of a payment that the ledger refused. -/
def ledgerFailedLog (escrow : Identifier) (e : LedgerError) : LogEntry :=
  about escrow .error "settlement.ledger_failed"
    [("error", .text e.message), ("code", .text e.code)]

/-- A plan carried to its end. A refusal of the ledger is reported as a failed settlement; anything
else that breaks the ledger is passed on. -/
def Plan.conclude (p : Plan) (ask : SettleRequest → LedgerAnswer) : Conclusion :=
  match p.next with
  | .finish => ⟨p.writes, .ok (), none⟩
  | .refuse f => ⟨p.writes, .error f, none⟩
  | .payOut r paid =>
    let a := ask r
    let told := p.writes.followedBy { log := a.log }
    match a.result with
    | .ok t => ⟨told.followedBy (paid t), .ok (), some r⟩
    | .error (.escrow (.ledger e)) =>
      ⟨told.followedBy { log := [ledgerFailedLog r.escrow e] },
        .error (.escrow (.settlementFailed r.escrow.text e.message)), some r⟩
    | .error f => ⟨told, .error f, some r⟩

/-- The record that an operation answers with: as it was read, with the change. -/
def Writes.view (w : Writes) (now : Moment) (e : Escrow) : Escrow :=
  match w.patch with
  | some p => p.applyAt now e
  | none => e

/-- A transaction on an escrow: its record is read, a plan is made and carried out, and the writes
are applied. -/
def carryOut (env : Surroundings) (escrow : Identifier) (plan : Escrow → List Condition → Plan)
    (s : Store) (c : Counters) : Outcome Escrow :=
  match s.escrow? escrow with
  | none => .refused s c [] (.escrow (.escrowNotFound escrow.text))
  | some e =>
    let k := (plan e (s.conditionsOf escrow)).conclude env.ask
    let c' := { c with events := c.events + k.writes.drafts.length }
    match k.verdict with
    | .error f => ⟨.error f, s, c', k.writes.log, [], k.asked, none⟩
    | .ok () =>
      match s.apply env.now escrow (c.events + 1) k.writes with
      | .error f => ⟨.error (.store f), s, c', k.writes.log, [], k.asked, none⟩
      | .ok s' =>
        let v := k.writes.view env.now e
        ⟨.ok v, s', c', k.writes.log, k.writes.closing, k.asked,
          k.writes.announcement.map fun a => a.about v⟩

/-! ## Locks -/

/-- The entries that a lock adds at the end of the work. -/
def Surroundings.unlockLog (env : Surroundings) (escrow : Identifier) : List LogEntry :=
  match env.lease with
  | some l => if l.kept then [] else [leaseExpiredLog escrow.text]
  | none => []

/-- Work on an escrow while its lock is held. Without the lock, or without a database, nothing
happens; a lock that was lost meanwhile is only noted. -/
def underLock {α : Type} (env : Surroundings) (escrow : Identifier)
    (work : Store → Counters → Outcome α) (s : Store) (c : Counters) : Outcome α :=
  if env.lease.any fun l => !l.acquired then
    .refused s c [lockTimeoutLog escrow.text env.lockWait] (.escrow (.busy escrow.text))
  else
    let o : Outcome α := match env.database with
      | some e => .refused s c [] (.breakdown e)
      | none => work s c
    { o with log := o.log.map (LogEntry.bind (some escrow)) ++ env.unlockLog escrow }

/-! ## Laws -/

/-- A transaction that fails leaves the store as it was. -/
theorem carryOut_store_of_error {env : Surroundings} {id : Identifier}
    {plan : Escrow → List Condition → Plan} {s : Store} {c : Counters} {f : Failure}
    (h : (carryOut env id plan s c).result = .error f) : (carryOut env id plan s c).store = s := by
  unfold carryOut at h ⊢
  split
  · rfl
  · rename_i e he
    simp only [he] at h ⊢
    split
    · rfl
    · rename_i hk
      simp only [hk] at h
      split
      · rfl
      · rename_i ha
        simp [ha] at h

/-- A transaction that fails notifies nobody. -/
theorem carryOut_announced_of_error {env : Surroundings} {id : Identifier}
    {plan : Escrow → List Condition → Plan} {s : Store} {c : Counters} {f : Failure}
    (h : (carryOut env id plan s c).result = .error f) :
    (carryOut env id plan s c).announced = none := by
  unfold carryOut at h ⊢
  split
  · rfl
  · rename_i e he
    simp only [he] at h ⊢
    split
    · rfl
    · rename_i hk
      simp only [hk] at h
      split
      · rfl
      · rename_i ha
        simp [ha] at h

end Custody

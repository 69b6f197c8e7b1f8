import Custody.Settings
import Custody.Notification

/-!
# Assembly

The settings decide which ledger, which dispatcher and which locks the services are built with. A
part that is handed in is taken as it is. Notifications go to the log alone where there is no Redis;
locks that workers share need one.

> `assemble_eq_error_iff`: an assembly fails exactly when shared locks are chosen, none are handed
> in and there is no Redis.
-/

namespace Custody

/-- The ledgers there are. -/
inductive LedgerKind where
  | simulated | gateway
deriving DecidableEq, Repr

/-- The locks there are: of one process, or shared by all workers. -/
inductive LockKind where
  | local' | shared
deriving DecidableEq, Repr

/-- The name of a ledger. -/
def LedgerKind.name : LedgerKind → String
  | .simulated => "SimulatedLedgerAdapter"
  | .gateway => "HttpLedgerAdapter"

/-- The name of a kind of locks. -/
def LockKind.name : LockKind → String
  | .local' => "LocalEscrowLocks"
  | .shared => "RedisEscrowLocks"

/-- The name of a dispatcher. -/
def Dispatcher.name : Dispatcher → String
  | .recorder => "Recorder"
  | .queue _ => "RedisNotificationDispatcher"
  | .log => "LoggingNotificationDispatcher"

/-- Parts that are handed in. -/
structure GivenParts where
  ledger : Option LedgerKind
  dispatcher : Option Dispatcher
  locks : Option LockKind
deriving DecidableEq, Repr

/-- Nothing is handed in. -/
def GivenParts.nothing : GivenParts := ⟨none, none, none⟩

/-- What the services are built with. -/
structure Assembly where
  ledger : LedgerKind
  dispatcher : Dispatcher
  locks : LockKind
deriving DecidableEq, Repr

/-- The entry that tells why notifications go to the log alone. -/
def logOnlyLog : LogEntry :=
  .warning "container.notifications_log_only" [("reason", .text "redis unavailable")]

/-- The entry that tells what was built. -/
def assembledLog (s : Settings) (d : Dispatcher) : LogEntry :=
  .info "container.built" [("ledger_mode", .text s.ledgerMode),
    ("lock_backend", .text s.lockBackend), ("notifier", .text d.name)]

/-- The ledger that the settings choose. -/
def Settings.ledger (s : Settings) : LedgerKind :=
  if s.ledgerMode = "http" then .gateway else .simulated

/-- The locks that the settings choose. -/
def Settings.locks (s : Settings) : LockKind :=
  if s.lockBackend = "redis" then .shared else .local'

/-- The dispatcher that there is without one handed in. -/
def usualDispatcher (s : Settings) (redis : Bool) : Dispatcher :=
  if redis then .queue s.notificationQueue else .log

/-- Builds the services. -/
def assemble (s : Settings) (redis : Bool) (given : GivenParts) :
    Except Failure Assembly × List LogEntry :=
  let d := given.dispatcher.getD (usualDispatcher s redis)
  let warning := if given.dispatcher.isNone && !redis then [logOnlyLog] else []
  if given.locks = none ∧ s.locks = .shared ∧ redis = false then
    (.error (.breakdown "escrow_lock_backend=redis requires a Redis connection"), warning)
  else
    (.ok ⟨given.ledger.getD s.ledger, d, given.locks.getD s.locks⟩,
      warning ++ [assembledLog s d])

/-- An assembly fails exactly when shared locks are chosen, none are handed in and there is no
Redis. -/
theorem assemble_eq_error_iff {s : Settings} {redis : Bool} {given : GivenParts} :
    (∃ f, (assemble s redis given).1 = .error f) ↔
      given.locks = none ∧ s.locks = .shared ∧ redis = false := by
  by_cases h : given.locks = none ∧ s.locks = .shared ∧ redis = false <;> simp [assemble, h]

end Custody

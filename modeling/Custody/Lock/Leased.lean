import Custody.Failure
import Custody.Log

/-!
# Leased locks

A lock that several workers share, lent for a limited time. Work that gets no lock in time does not
happen; work that outlasts the lease has happened all the same, and only the log tells.
-/

namespace Custody

/-- How a lease goes: whether the lock is got in time, and whether it is still held at the end. -/
structure Lease where
  acquired : Bool
  kept : Bool
deriving DecidableEq, Repr

/-- A lease on which all goes well. -/
def Lease.good : Lease := ⟨true, true⟩

/-- The entry of work that got no lock; `wait` is the time that was allowed. -/
def lockTimeoutLog (escrow : String) (wait : Json) : LogEntry :=
  .warning "escrow_lock.timeout" [("escrow_id", .text escrow), ("wait", wait)]

/-- The entry of work that outlasted its lease. -/
def leaseExpiredLog (escrow : String) : LogEntry :=
  .error "escrow_lock.expired_while_held" [("escrow_id", .text escrow)]

/-- The steps of a lease, in order. -/
inductive LeaseStep where
  | acquire | body | release
deriving DecidableEq, Repr

/-- The name of a step. -/
def LeaseStep.name : LeaseStep → String
  | .acquire => "acquire"
  | .body => "body"
  | .release => "release"

/-- Work under a lease: its outcome, the entries it adds to the log, and the steps taken. -/
def Lease.around {α : Type} (l : Lease) (escrow : String) (wait : Json)
    (work : Except Failure α) : Except Failure α × List LogEntry × List LeaseStep :=
  if !l.acquired then
    (.error (.escrow (.busy escrow)), [lockTimeoutLog escrow wait], [.acquire])
  else (work, if l.kept then [] else [leaseExpiredLog escrow], [.acquire, .body, .release])

/-- The name of the lock of an escrow. -/
def lockName (start escrow : String) : String := start ++ ":" ++ escrow

end Custody

import Custody.Api.Message
import Custody.Log

/-!
# Health

Whether the collaborators can be reached. Redis counts only where it is configured; one that cannot
be reached degrades the whole.

> `health_ok_iff`: the whole is well exactly when every collaborator that counts is.
-/

namespace Custody.Api

/-- A collaborator as it is found: not configured, in order, or broken down with a message. -/
inductive Pulse where
  | absent
  | healthy
  | unhealthy (message : String)
deriving DecidableEq, Repr

namespace Pulse

/-- A pulse in words. -/
def text : Pulse → String
  | .absent => "not configured"
  | .healthy => "healthy"
  | .unhealthy m => "unhealthy: " ++ m

/-- The entry that a broken collaborator leaves in the log. -/
def log (event : String) : Pulse → List LogEntry
  | .unhealthy m => [.error event [("error", .text m)]]
  | _ => []

/-- Whether a collaborator that may be left out is no trouble. -/
def isFine : Pulse → Bool
  | .unhealthy _ => false
  | _ => true

end Pulse

/-- The collaborators of the service. -/
structure Vitals where
  database : Pulse
  redis : Pulse
deriving DecidableEq, Repr

namespace Vitals

/-- The database is there, and no Redis. -/
def usual : Vitals := ⟨.healthy, .absent⟩

/-- The status of the whole. -/
def status (v : Vitals) : String :=
  if v.database = .healthy ∧ v.redis.isFine then "ok" else "degraded"

/-- What the health check answers. -/
def view (v : Vitals) : Json :=
  .object [("status", .text v.status), ("version", .text "0.1.0"),
    ("database", .text v.database.text), ("redis", .text v.redis.text)]

/-- What the health check writes into the log. -/
def log (v : Vitals) : List LogEntry :=
  v.database.log "health.db_check_failed" ++ v.redis.log "health.redis_check_failed"

theorem health_ok_iff (v : Vitals) :
    v.status = "ok" ↔ v.database = .healthy ∧ v.redis.isFine = true := by
  unfold status
  split
  · rename_i h; simp [h]
  · rename_i h
    constructor
    · intro e; exact absurd e (by decide)
    · intro h'; exact absurd h' h

end Vitals

end Custody.Api

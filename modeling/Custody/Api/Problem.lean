import Custody.Api.Message
import Custody.Log

/-!
# Problems

How a failure is answered. A refusal of the domain has a status by its cause and tells its code and
its message; any other failure is an internal error and tells nothing.

> `problem_of_not_escrow`: what is no refusal of the domain is answered with 500 and no detail.
-/

namespace Custody.Api

/-- The status of a refusal. -/
def statusOf : EscrowError → Nat
  | .missing .. => 404
  | .escrowNotFound _ => 404
  | .conditionNotFound _ => 404
  | .forbidden .. => 403
  | .invalidState _ => 409
  | .invalidTransition .. => 409
  | .busy _ => 503
  | .invalidDefinition _ => 422
  | .settlementFailed .. => 502
  | .general .. => 400
  | .ledger _ => 400

/-- The answer to a failure. Who meets a busy escrow is told to come again after a second. -/
def problem : Failure → Response
  | .escrow e =>
    { Response.json (statusOf e) (.object [("error", .text e.code), ("message", .text e.message)])
      with retryAfter := match e with
        | .busy _ => some "1"
        | _ => none }
  | _ =>
    Response.json 500 (.object [("error", .text "INTERNAL_ERROR"),
      ("message", .text "An unexpected error occurred")])

/-- The entry that a failure leaves in the log. -/
def problemLog : Failure → LogEntry
  | .escrow e =>
    match e with
    | .missing .. => .warning "request.not_found" [("error", .text e.message)]
    | .escrowNotFound _ => .warning "request.not_found" [("error", .text e.message)]
    | .conditionNotFound _ => .warning "request.not_found" [("error", .text e.message)]
    | .forbidden actor action _ =>
      .warning "request.forbidden" [("actor", .text actor), ("action", .text action)]
    | .invalidTransition c a =>
      .warning "state_machine.invalid_transition" [("current", .text c), ("attempted", .text a)]
    | .invalidState f =>
      .warning "request.invalid_state"
        [("error", .text e.message), ("status", Json.ofText? f.status?)]
    | .busy i => .warning "escrow_lock.busy" [("escrow_id", .text i)]
    | .invalidDefinition _ => .warning "request.invalid_definition" [("error", .text e.message)]
    | .settlementFailed i r =>
      .error "settlement.failed" [("escrow_id", .text i), ("reason", .text r)]
    | _ => .error "domain.error" [("error", .text e.message), ("code", .text e.code)]
  | f => .error "unhandled.error" [("error", .text f.message)]

theorem problem_of_not_escrow {f : Failure} (h : ∀ e, f ≠ .escrow e) :
    problem f = Response.json 500 (.object [("error", .text "INTERNAL_ERROR"),
      ("message", .text "An unexpected error occurred")]) := by
  cases f with
  | escrow e => exact absurd rfl (h e)
  | _ => rfl

end Custody.Api

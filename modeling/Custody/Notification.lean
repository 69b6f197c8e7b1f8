import Custody.Log
import Custody.Vocabulary
import Custody.Json.Printer

/-!
# Notifications

A notification names an event and carries what was true of the escrow then. It is only requested
here: an envelope goes to a queue, or to the log where there is no queue. Sending never fails an
operation; a dispatcher that breaks down leaves an entry in the log instead.

> `send_log_of_ok`: a send that does not fail logs what the dispatch logs and nothing else.
-/

namespace Custody

/-- A request to notify. -/
structure Notification where
  event : String
  payload : List (String × LogValue)
deriving Repr, Inhabited

namespace Notification

/-- A payload with the values of further members set. -/
def extend (payload extra : List (String × LogValue)) : List (String × LogValue) :=
  extra.foldl (fun ms (k, v) =>
    if ms.any fun m => m.1 = k then ms.map fun m => if m.1 = k then (k, v) else m
    else ms ++ [(k, v)]) payload

/-- The state of an escrow at the time of an event, and what the event adds. -/
def ofState (event : Notice) (escrow : Identifier) (status amount asset creator : String)
    (recipient : Option String) (extra : List (String × LogValue)) : Notification :=
  let text (s : String) : LogValue := .json (.text s)
  { event := word event
    payload := extend
      [("escrow_id", text escrow.text), ("status", text status), ("amount", text amount),
        ("asset", text asset), ("creator_id", text creator),
        ("recipient_id", .json (Json.ofText? recipient))] extra }

/-- The names under which the event and the escrow are told; what an event adds has other ones. -/
def ownNames : List String := ["event", "escrow"]

/-- Whether what an event adds can be told beside the event and the escrow. -/
def canAdd (extra : List (String × LogValue)) : Bool := extra.all fun m => m.1 ∉ ownNames

/-- The payload with numbers, identifiers and moments as text. -/
def payloadJson (moment : Moment → String) (n : Notification) : Json :=
  .object (LogValue.textsMembers moment n.payload)

/-- The envelope that goes to a queue. -/
def envelope (n : Notification) (now : Moment) : String :=
  Json.render Json.spaced (.object
    [("event", .text n.event), ("payload", n.payloadJson Moment.spacedText),
      ("emitted_at", .text (Moment.utc now.instant).isoText)])

end Notification

/-- Where notifications go: they are kept as they are, put into a queue, or only logged. -/
inductive Dispatcher where
  | recorder
  | queue (key : String)
  | log
deriving DecidableEq, Repr

/-- What a dispatch leaves behind. -/
structure Delivery where
  sent : List Notification
  queued : List (String × String)
  log : List LogEntry
deriving Repr, Inhabited

namespace Delivery

/-- Nothing happened. -/
def none : Delivery := ⟨[], [], []⟩

end Delivery

/-- The default name of the queue. -/
def defaultQueue : String := "escrow:notifications"

namespace Dispatcher

/-- A dispatch; where `broken` gives a reason, the recorder and the queue fail with it. -/
def dispatch (d : Dispatcher) (broken : Option String) (now : Moment) (n : Notification) :
    Except String Delivery :=
  match d, broken with
  | .recorder, some e => .error e
  | .queue _, some e => .error e
  | .recorder, Option.none => .ok { Delivery.none with sent := [n] }
  | .queue key, Option.none =>
    .ok { sent := [], queued := [(key, n.envelope now)],
          log := [.debug "notification.queued" [("event_name", .text n.event), ("queue", .text key)]] }
  | .log, _ =>
    .ok { Delivery.none with
          log := [.info "notification.logged"
            [("event_name", .text n.event), ("payload", n.payloadJson Moment.isoText)]] }

/-- A dispatch whose failure is only logged. -/
def send (d : Dispatcher) (broken : Option String) (now : Moment) : Option Notification → Delivery
  | Option.none => Delivery.none
  | some n =>
    match d.dispatch broken now n with
    | .ok r => r
    | .error e =>
      { Delivery.none with
        log := [.warning "notification.dispatch_failed"
          [("event_name", .text n.event), ("error", .text e)]] }

theorem send_log_of_ok {d : Dispatcher} {b : Option String} {now : Moment} {n : Notification}
    {r : Delivery} (h : d.dispatch b now n = .ok r) : d.send b now (some n) = r := by
  simp [send, h]

end Dispatcher

end Custody

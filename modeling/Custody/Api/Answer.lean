import Custody.Api.Call
import Custody.Api.Health
import Custody.Api.Problem
import Custody.Api.View

/-!
# Answers

A request is answered in steps, and the first that stops it decides: the route, the reading of the
body as JSON, the user, the services, the values of the request, and at last the operation itself.
Around it all, pages of other origins are let in, except where a failure is answered.

> `answer_of_failure`: a failure is answered by its problem, without letting other origins in.
-/

namespace Custody.Api

/-- What answers requests for a service: whether the service is up, the state of its collaborators, and
the context of arithmetic in which amounts are judged. -/
structure Host where
  up : Bool
  vitals : Vitals
  decimals : Decimal.Context

/-- A host that is up, with all in order and the context of arithmetic that is usual. -/
def Host.usual : Host := ⟨true, .usual, .usual⟩

/-- A service and what answers requests for it. -/
structure Site extends Host where
  service : Service

/-- What comes of a request: an answer or a failure, the service afterwards, and what others get to
see. -/
structure Reply where
  result : Except Failure Response
  service : Service
  effects : Effects

namespace Reply

/-- An answer that changes nothing. -/
def only (v : Service) (r : Except Failure Response) : Reply := ⟨r, v, Effects.nothing⟩

/-- An answer with log entries. -/
def logging (es : List LogEntry) (r : Reply) : Reply :=
  { r with effects := r.effects.followedBy (Effects.ofLog es) }

/-- The view of what an operation answers with. -/
def answerView (s : Store) : Answer → Except Failure Json
  | .escrow e => escrowView s e
  | .condition c => conditionView c

/-- An operation, answered with the view of its result; `told` is written into the log when it went
well. -/
def ofOperation (v : Service) (status : Nat) (by' : Caller) (told : List LogEntry)
    (op : Operation) : Reply :=
  match v.perform by' op with
  | (.error f, w, fx) => ⟨.error f, w, fx⟩
  | (.ok a, w, fx) =>
    ⟨(answerView w.store a).map (Response.json status), w, fx.followedBy (Effects.ofLog told)⟩

end Reply

/-- The entry of a dispute that was resolved by a request. -/
def resolvedLog (escrow : Identifier) (r : Resolution) : LogEntry :=
  .info "api.dispute_resolved" [("escrow_id", .text escrow.text), ("resolution", .text (word r))]

/-- The entry of a consistency check that was asked for. -/
def checkRequestedLog (count : Nat) : LogEntry :=
  .info "api.consistency_check_requested" [("count", .int count)]

/-- A task, answered with the escrow. A resolution leaves an entry of its own. -/
def answerTask (v : Service) (by' : Caller) (escrow : Identifier) (t : Task) : Reply :=
  let told := match t with
    | .resolve (.ok x) _ => [resolvedLog escrow x]
    | _ => []
  Reply.ofOperation v 200 by' told (.task escrow t)

/-- Carries out a call of a user. -/
def Call.answer (s : Site) (by' : Caller) : Call → Reply
  | .health => (Reply.only s.service (.ok (Response.json 200 s.vitals.view))).logging s.vitals.log
  | .create r => Reply.ofOperation s.service 201 by' [] (.create (NewEscrow.ofRequest r))
  | .list q => Reply.only s.service do
    let p ← s.service.read (s.service.store.list by'.user q)
    return Response.json 200 (← pageView s.service.store q p)
  | .overview q => Reply.only s.service do
    let v := s.service
    let o ← v.read (v.store.overview by'.user q v.settings.overviewMaxPageSize v.now)
    return Response.json 200 (overviewView o)
  | .show' i => Reply.only s.service do
    let e ← s.service.read (s.service.store.readEscrow i (some by'.user))
    return Response.json 200 (← escrowView s.service.store e)
  | .events i => Reply.only s.service do
    let es ← s.service.read (s.service.store.readEvents i (some by'.user))
    return Response.json 200 (.list (← es.mapM eventView))
  | .task i t => answerTask s.service by' i t
  | .expire i reason =>
    match s.service.read (s.service.store.readEscrow i (some by'.user)) with
    | .error f => Reply.only s.service (.error f)
    | .ok _ => answerTask s.service by' i (.expire reason none)
  | .confirm c => Reply.ofOperation s.service 200 by' [] (.confirm c)
  | .check ids =>
    let a := s.service.check ids
    ⟨(checkView a.result).map (Response.json 200), s.service,
      Effects.ofLog (checkRequestedLog ids.length :: a.log)⟩

/-- The user that a request names. -/
def Request.user? (r : Request) : Option String := (r.header? "x-user-id").filter (· ≠ "")

/-- Answers a request to an endpoint that comes from a connection. -/
def Endpoint.answer (s : Site) (connection : String) (r : Request) (holes : List String)
    (e : Endpoint) : Reply :=
  let stop (x : Response) : Reply := Reply.only s.service (.ok x)
  match (if e.takesBody then r.payload else .ok .nothing) with
  | .error (.misread n) => stop (Response.invalid [⟨.jsonInvalid, [.key "body", .index n]⟩])
  | .error _ => stop (Response.detail 400 "There was an error parsing the body")
  | .ok p =>
    if e.needsUser ∧ r.user?.isNone then stop (Response.detail 401 "Missing X-User-ID header")
    else if e.needsServices ∧ !s.up then stop (Response.detail 503 "Services are not initialized")
    else match readCall s.decimals e holes r.queryFields p with
      | .error fs => Reply.only s.service (p.refuse fs)
      | .ok c => c.answer s ⟨r.user?.getD "", some (r.address connection)⟩

/-- Answers a request by its route. -/
def route (s : Site) (connection : String) (r : Request) : Reply :=
  let stop (x : Response) : Reply := Reply.only s.service (.ok x)
  match Destination.find r.method r.path with
  | .found e holes => e.answer s connection r holes
  | .otherMethod => stop (Response.detail 405 "Method Not Allowed")
  | .otherPath => stop { status := 307, content := .text "" }
  | .nowhere => stop (Response.detail 404 "Not Found")

/-! ## Other origins -/

/-- The methods that pages of other origins may use. -/
def sharedMethods : List String := ["DELETE", "GET", "HEAD", "OPTIONS", "PATCH", "POST", "PUT"]

/-- The method that a page of another origin asks for before it uses it. -/
def Request.preflight? (r : Request) : Option String :=
  if r.method = "OPTIONS" ∧ (r.header? "origin").isSome then
    r.header? "access-control-request-method"
  else none

/-- The answer to a page that asks before it uses a method. Pages of a public network are not let into
a private one. -/
def preflight (r : Request) (method : String) : Response :=
  let refused := (if method ∈ sharedMethods then [] else ["method"]) ++
    (if (r.header? "access-control-request-private-network").isSome then ["private-network"] else [])
  if refused.isEmpty then { status := 200, content := .text "OK" }
  else { status := 400, content := .text ("Disallowed CORS " ++ ", ".intercalate refused) }

/-- Answers a request and lets the page in that it came from. -/
def share (s : Site) (connection : String) (r : Request) : Reply :=
  let inner := match r.preflight? with
    | some m => Reply.only s.service (.ok (preflight r m))
    | none => route s connection r
  { inner with result := inner.result.map fun x => { x with allowOrigin := r.header? "origin" } }

/-! ## The whole -/

/-- What a request binds to the log: its own identifier, if it has one, and its user. -/
def Request.context (r : Request) : Members :=
  ((r.header? "x-request-id").map fun i => ("request_id", Json.text i)).toList ++
    [("user_id", Json.ofText? (r.header? "x-user-id"))]

/-- The answer to a request: a failure becomes a problem, and the request's own identifier is given
back. The body is left out where only the head was asked for. What the request binds to the log stays
bound until the next one. -/
def answer (s : Site) (connection : String) (r : Request) : Response × Service × Effects :=
  let inner := share s connection r
  let (response, log) := match inner.result with
    | .ok x => (x, [])
    | .error f => (problem f, [problemLog f])
  let content := if r.method = "HEAD" then .text "" else response.content
  let service := { inner.service with context := r.context }
  ({ response with content := content, requestId := r.header? "x-request-id" }, service,
    service.mark (inner.effects.followedBy (Effects.ofLog log)))

/-- A failure is answered by its problem, without letting other origins in. -/
theorem answer_of_failure {s : Site} {connection : String} {r : Request} {f : Failure}
    (h : (share s connection r).result = .error f) :
    (answer s connection r).1.status = (problem f).status ∧
      (answer s connection r).1.allowOrigin = (problem f).allowOrigin := by
  simp [answer, h]

end Custody.Api

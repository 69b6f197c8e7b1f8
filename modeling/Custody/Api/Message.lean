import Custody.Address
import Custody.Failure
import Custody.Json.Encoded
import Custody.Json.Printer
import Custody.Schema.Reading
import Custody.Text.Ascii
import Custody.Text.Blank
import Custody.Text.Percent

/-!
# Requests and responses

A request as it arrives: a method, a path, a query, headers whose names are matched without regard to
case, and perhaps a body. A target that is no address, and a header that is not ASCII, make no
request. A response has a status, a body and the few headers that the service sets.

> `payload_of_empty`: a request without a body, or with an empty one, brings nothing.
-/

namespace Custody.Api

/-- The body of a request or a response. -/
inductive Content where
  | json (v : Json)
  | text (s : String)
deriving Repr

namespace Content

/-- The bytes that carry a body. A value that none can carry is refused. -/
def carried : Content → Except Failure (List UInt8)
  | .json v => if v.isPortable then .ok (Utf8.encode v.toText) else .error (.value .unportable)
  | .text s => .ok (Utf8.encode s)

end Content

/-- A request. The path is decoded, and the query and the body stand as they were sent; `spare` says
how much room for nesting is left when the body is read. -/
structure Request where
  method : String
  path : List Char
  query : List Char
  headers : List (String × String)
  body : Option (List UInt8)
  spare : Nat
deriving Repr

namespace Request

/-- The address of the service itself. -/
def root : Address := ⟨"http".toList, [], "test".toList, none, ['/'], none, none⟩

/-- The text of a header, which has characters of ASCII only. -/
def headerText (s : String) : Except Failure String :=
  if Text.isAscii s then .ok s else .error (.value (.header s))

/-- The request for a target below the service. -/
def ofTarget (method target : String) (headers : List (String × String)) (content : Option Content)
    (spare : Nat) : Except Failure Request :=
  match root.below? target with
  | none => .error .badAddress
  | some a => do
    let headers ← headers.mapM fun (k, v) => return (← headerText k, ← headerText v)
    let body ← match content with
      | some c => c.carried.map some
      | none => .ok none
    return ⟨Text.upper method, Text.unquote (if a.path.isEmpty then ['/'] else a.path),
      a.query.getD [], headers, body, spare⟩

/-- The value of a header. -/
def header? (r : Request) (name : String) : Option String :=
  (r.headers.find? fun h => Text.lower h.1 = name).map (·.2)

/-- A piece of a query as text: a plus is a blank. -/
def queryText (cs : List Char) : String :=
  String.ofList (Text.unquote (cs.map fun c => if c = '+' then ' ' else c))

/-- The pairs of the query, in their order. -/
def queryPairs (r : Request) : List (String × String) :=
  ((r.query.splitOn '&').filter fun p => !p.isEmpty).map fun p =>
    (queryText (p.takeWhile (· != '=')), queryText ((p.dropWhile (· != '=')).drop 1))

/-- The fields of the query: of several values for a name the last one counts. -/
def queryFields (r : Request) : Members := Json.distinct (r.queryPairs.map fun (k, v) => (k, .text v))

/-- The address of the client: the first one that the request was forwarded for, cut to the length
of an address, or the address of the connection. -/
def address (r : Request) (connection : String) : String :=
  match r.header? "x-forwarded-for" with
  | some f =>
    if f = "" then connection
    else String.ofList ((Text.trim (f.toList.takeWhile (· != ','))).take 45)
  | none => connection

/-- Whether a content type announces JSON. -/
def announcesJson (type : String) : Bool :=
  let t := String.ofList (Text.trim (type.toList.takeWhile (· != ';')))
  match (Text.lower t).toList.splitOn '/' with
  | [main, sub] =>
    String.ofList main = "application" &&
      (String.ofList sub = "json" || "+json".toList.isSuffixOf sub)
  | _ => false

end Request

/-- What a request brings: nothing, a JSON value, or something else. -/
inductive Payload where
  | nothing
  | json (v : Json)
  | other
deriving Repr

/-- The payload of a request. Only a body whose content type announces JSON is read as such. -/
def Request.payload (r : Request) : Except Json.ReadError Payload :=
  match r.body with
  | none => .ok .nothing
  | some b =>
    if b = [] then .ok .nothing
    else if (r.header? "content-type").any Request.announcesJson then
      (Json.ofDocument r.spare b).map .json
    else .ok .other

/-- Reads a payload as the body of a request. -/
def Payload.read {α : Type} (reader : Reader α) (p : Payload) : Reading α :=
  (match p with
    | .nothing => Reading.fault .missing
    | .json v => reader v
    | .other => Reading.fault .modelAttributesType).under (.key "body")

theorem payload_of_empty {r : Request} (h : r.body = none ∨ r.body = some []) :
    r.payload = .ok .nothing := by
  rcases h with h | h <;> simp [Request.payload, h]

/-- A response. -/
structure Response where
  status : Nat
  content : Content
  retryAfter : Option String := none
  allowOrigin : Option String := none
  requestId : Option String := none
deriving Repr

namespace Response

/-- A response with a JSON body. -/
def json (status : Nat) (v : Json) : Response := { status := status, content := .json v }

/-- A response that tells a detail. -/
def detail (status : Nat) (text : String) : Response :=
  json status (.object [("detail", .text text)])

/-- A step on the way to a value. -/
def stepView : PathStep → Json
  | .key k => .text k
  | .index n => .int n

/-- What is told of a finding. -/
def findingView (f : Finding) : Json :=
  .object [("type", .text f.violation.code), ("loc", .list (f.path.map stepView))]

/-- A response to a request whose values are not as they should be. -/
def invalid (fs : List Finding) : Response :=
  json 422 (.object [("detail", .list (fs.map findingView))])

end Response

namespace Payload

/-- The value at the end of a path. -/
def valueAt : List PathStep → Json → Option Json
  | [], v => some v
  | .key k :: rest, v => (v.get? k).bind (valueAt rest)
  | .index n :: rest, .list vs => vs[n]?.bind (valueAt rest)
  | .index _ :: _, _ => none

/-- Whether a response can carry the value that a finding is about: where something is missing, what
it is missing in. -/
def canShow (p : Payload) (f : Finding) : Bool :=
  match p, f.path with
  | .json v, .key "body" :: path =>
    let path := if f.violation = .missing then path.dropLast else path
    (valueAt path v).all Json.isPortable
  | _, _ => true

/-- Refuses a request for what was found in it. The values that are at fault are shown with it, so
that one which no text can carry breaks the response. -/
def refuse (p : Payload) (fs : List Finding) : Except Failure Response :=
  if fs.all p.canShow then .ok (Response.invalid fs) else .error (.value .unportable)

end Payload

end Custody.Api

import Custody.Api.Message
import Custody.Api.Route
import Custody.Service

/-!
# Calls

What a request asks for, once its path, its query and its body have been read. All that is wrong
with the three is told together, in this order.

> `readCall_of_check`: a consistency check is read from the body alone.
-/

namespace Custody.Api

/-- A request that can be carried out. -/
inductive Call where
  | health
  | create (r : CreateRequest)
  | list (q : ListQuery)
  | overview (q : OverviewQuery)
  | show' (escrow : Identifier)
  | events (escrow : Identifier)
  | task (escrow : Identifier) (t : Task)
  | expire (escrow : Identifier) (reason : Option String)
  | confirm (condition : Identifier)
  | check (escrows : List Identifier)

namespace Endpoint

/-- Whether an endpoint reads the body of a request. -/
def takesBody : Endpoint → Bool
  | .create | .update | .activate | .cancel | .expire | .dispute | .resolve | .check => true
  | _ => false

/-- Whether an endpoint is for users. -/
def needsUser : Endpoint → Bool
  | .health | .check => false
  | _ => true

/-- Whether an endpoint is of any use without the services. -/
def needsServices : Endpoint → Bool
  | .health => false
  | _ => true

end Endpoint

/-- Reads a field of the query. -/
def inQuery {α : Type} (r : Reading α) : Reading α := r.under (.key "query")

/-- Reads the identifier in the path. -/
def inPath (name : String) (holes : List String) : Reading Identifier :=
  ((identifier (.text (holes.headD ""))).under (.key name)).under (.key "path")

/-- Reads the query of a listing. -/
def readListQuery (ms : Members) : Reading ListQuery :=
  inQuery (Except.ok (fun status type role search column order page limit =>
      (⟨status, type, role, search, column, order, page, limit⟩ : ListQuery))
    |> Reading.arg (defaulted ms "status" (nullable (wordOf Status)) none)
    |> Reading.arg (defaulted ms "type" (nullable (wordOf EscrowType)) none)
    |> Reading.arg (defaulted ms "role" (nullable (wordOf Role)) none)
    |> Reading.arg (defaulted ms "search" (nullable (textIn 0 (some 200))) none)
    |> Reading.arg ((defaulted ms "sort_by" anyText "created_at").map Column.ofText)
    |> Reading.arg (defaulted ms "sort_order" (wordOf SortOrder) .desc)
    |> Reading.arg (defaulted ms "page" (wholeIn 1 none) 1)
    |> Reading.arg (defaulted ms "limit" (wholeIn 1 (some 100)) 10))

/-- Reads the query of an overview. -/
def readOverviewQuery (ms : Members) : Reading OverviewQuery :=
  inQuery (Except.ok (fun role status token createdFrom createdTo sortBy sortOrder page pageSize =>
      (⟨role, status, token, createdFrom, createdTo, page, pageSize, sortBy, sortOrder⟩ :
        OverviewQuery))
    |> Reading.arg (defaulted ms "role" (wordOf OverviewRole) .any)
    |> Reading.arg (defaulted ms "status" (nullable (wordOf OverviewStatus)) none)
    |> Reading.arg (defaulted ms "token" (nullable (textIn 0 (some 12))) none)
    |> Reading.arg (defaulted ms "created_from" (nullable (moment .body)) none)
    |> Reading.arg (defaulted ms "created_to" (nullable (moment .body)) none)
    |> Reading.arg (defaulted ms "sort_by" (wordOf OverviewSort) .createdAt)
    |> Reading.arg (defaulted ms "sort_order" (wordOf SortOrder) .desc)
    |> Reading.arg (defaulted ms "page" (wholeIn 1 none) 1)
    |> Reading.arg (defaulted ms "page_size" (wholeIn 1 (some 100)) 20))

/-- Reads a task on the escrow in the path from a body. -/
def readTask {α : Type} (holes : List String) (p : Payload) (reader : Reader α)
    (call : Identifier → α → Call) : Reading Call :=
  ((inPath "escrow_id" holes).both (p.read reader)).map fun (i, a) => call i a

/-- Reads what a request asks of an endpoint; amounts are judged in a context of arithmetic. -/
def readCall (ctx : Decimal.Context) (e : Endpoint) (holes : List String) (query : Members)
    (p : Payload) : Reading Call :=
  match e with
  | .health => .ok .health
  | .create => (p.read (CreateRequest.read ctx .body)).map .create
  | .list => (readListQuery query).map .list
  | .overview => (readOverviewQuery query).map .overview
  | .show' => (inPath "escrow_id" holes).map .show'
  | .events => (inPath "escrow_id" holes).map .events
  | .update => readTask holes p (UpdateRequest.read .body) fun i r => .task i (.update r)
  | .activate => readTask holes p (readActivation .body) fun i t => .task i (.activate t)
  | .cancel => readTask holes p (readReason .body) fun i r => .task i (.cancel r)
  | .expire => readTask holes p (readReason .body) fun i r => .expire i r
  | .release => (inPath "escrow_id" holes).map fun i => .task i (.release true)
  | .dispute => readTask holes p (readDispute .body) fun i r => .task i (.dispute (some r))
  | .resolve =>
    readTask holes p (ResolveRequest.read .body) fun i r => .task i (.resolve (.ok r.resolution) r.note)
  | .confirm => (inPath "condition_id" holes).map .confirm
  | .check => (p.read (readCheck .body)).map .check

theorem readCall_of_check (ctx : Decimal.Context) (hs : List String) (q : Members) (p : Payload) :
    readCall ctx .check hs q p = (p.read (readCheck .body)).map .check := rfl

end Custody.Api

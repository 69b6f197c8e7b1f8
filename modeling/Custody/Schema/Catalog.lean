import Custody.Schema.Request

/-!
# The catalog of schemas

Every shape of a request or a response by its name: how a value of it is read, what it is shown
as, and which of its fields were given.
-/

namespace Custody

/-- A named shape. -/
structure Schema where
  name : String
  fields : List String
  read : Reader Json

namespace Schema

/-- A reader whose result is shown as JSON. -/
def shown {α : Type} (show' : α → Json) (r : Reader α) : Reader Json := fun v => (r v).map show'

/-- A text as it is. -/
def textField : Reader Json := shown .text anyText

/-- A moment in its response form. -/
def momentField : Reader Json := shown (.text ∘ Moment.responseText) (moment .text)

/-- A word of a vocabulary. -/
def wordField (α : Type) [Worded α] : Reader Json := shown (.text ∘ word) (wordOf α)

/-- An identifier by its text. -/
def identifierField : Reader Json := shown (.text ∘ Identifier.text) identifier

/-- A decimal by its text. -/
def decimalField : Reader Json := shown (.text ∘ Decimal.text) (decimal .text)

/-- A whole number. -/
def wholeField : Reader Json := shown .int whole

/-- A truth value. -/
def truthField : Reader Json := shown .bool truth

/-- Null or something that is shown. -/
def orNull (r : Reader Json) : Reader Json := shown (·.getD .null) (nullable r)

/-- A list of things that are shown. -/
def listField (r : Reader Json) : Reader Json := shown .list (listOf r 0 none)

/-- An object as it is. -/
def objectField : Reader Json := shown .object anyObject

/-- A field of a response: the name it is read under, the name it is shown under, its value when
it is left out, and its reader. -/
structure Field where
  name : String
  shownAs : String
  fallback : Option Json
  read : Reader Json

/-- A field that has to be there. -/
def must (name : String) (r : Reader Json) : Field := ⟨name, name, none, r⟩

/-- The fields of an object in their order. -/
def readFields (ms : Members) : List Field → Reading Members
  | [] => .ok []
  | f :: rest =>
    let here := match f.fallback with
      | some v => defaulted ms f.name f.read v
      | none => required ms f.name f.read
    (here.both (readFields ms rest)).map fun (v, vs) => (f.shownAs, v) :: vs

/-- An object with these fields. -/
def record (fs : List Field) : Reader Json := model .text fun ms => (readFields ms fs).map .object

/-! ## Responses -/

/-- A party of a response. -/
def party : List Field := [must "user_id" textField, must "role" (wordField Role)]

/-- A condition of a response; its metadata are read under the name of their column. -/
def condition : List Field :=
  [must "id" identifierField, must "escrow_id" identifierField, must "description" textField,
    must "type" textField, ⟨"metadata_json", "metadata", some .null, orNull objectField⟩,
    must "is_met" truthField, must "met_at" (orNull momentField),
    must "met_by_user_id" (orNull textField)]

/-- An escrow of a response. -/
def escrow : List Field :=
  [must "id" identifierField, must "title" textField, must "description" (orNull textField),
    must "amount" decimalField, must "asset" textField, must "type" (wordField EscrowType),
    must "status" (wordField Status), must "creator_id" textField, must "is_released" truthField,
    must "release_transaction_hash" (orNull textField),
    must "funding_transaction_hash" (orNull textField), must "expires_at" (orNull momentField),
    must "parties" (listField (record party)), must "conditions" (listField (record condition)),
    must "created_at" momentField, must "updated_at" momentField]

/-- A page of escrows. -/
def escrowList : List Field :=
  [must "data" (listField (record escrow)), must "total" wholeField, must "page" wholeField,
    must "limit" wholeField]

/-- An entry of the audit log. -/
def event : List Field :=
  [must "id" identifierField, must "escrow_id" identifierField, must "sequence" wholeField,
    must "event_type" textField, must "actor_id" textField, must "old_status" (orNull textField),
    must "new_status" (orNull textField), must "data" (orNull objectField),
    must "ip_address" (orNull textField), must "created_at" momentField]

/-- An item of an overview. -/
def overviewItem : List Field :=
  [must "escrow_id" identifierField, must "depositor" textField,
    must "recipient" (orNull textField), must "token" textField, must "total_amount" decimalField,
    must "total_released" decimalField, must "remaining_amount" decimalField,
    must "status" (wordField Status), must "deadline" (orNull momentField),
    must "created_at" momentField, must "updated_at" momentField]

/-- A page of an overview. -/
def overview : List Field :=
  [must "data" (listField (record overviewItem)), must "total_items" wholeField,
    must "total_pages" wholeField, must "page" wholeField, must "page_size" wholeField]

/-- A field on which a record and the ledger differ. -/
def mismatch : List Field :=
  [must "field_name" textField, must "db_value" anyValue, must "onchain_value" anyValue]

/-- The report on one escrow. -/
def report : List Field :=
  [must "escrow_id" textField, must "is_consistent" truthField,
    must "fields_mismatched" (listField (record mismatch)), must "missing_in_db" truthField,
    must "missing_on_chain" truthField, must "error" (orNull textField)]

/-- The tally of a check. -/
def summary : List Field :=
  ["total_checked", "total_inconsistent", "total_missing_in_db", "total_missing_on_chain",
    "total_errored"].map fun n => must n wholeField

/-- The outcome of a check. -/
def checkResult : List Field :=
  [must "reports" (listField (record report)), must "summary" (record summary)]

/-- The state of the service. -/
def health : List Field :=
  [("status", "ok"), ("version", "0.1.0"), ("database", "unknown"), ("redis", "unknown")].map
    fun (n, v) => ⟨n, n, some (.text v), textField⟩

/-! ## By name -/

/-- The shape of a response. -/
def response (name : String) (fs : List Field) : Schema :=
  ⟨name, fs.map (·.shownAs), record fs⟩

/-- All shapes. -/
def all (ctx : Decimal.Context) : List Schema :=
  [⟨"PartyInput", ["user_id", "role"], shown PartyInput.toJson (PartyInput.read .text)⟩,
    ⟨"ConditionInput", ["description", "type", "metadata"],
      shown ConditionInput.toJson (ConditionInput.read .text)⟩,
    ⟨"CreateEscrowRequest",
      ["title", "description", "amount", "asset", "type", "parties", "conditions", "expires_at"],
      shown CreateRequest.toJson (CreateRequest.read ctx .text)⟩,
    ⟨"UpdateEscrowRequest", ["title", "description", "expires_at"],
      shown UpdateRequest.toJson (UpdateRequest.read .text)⟩,
    ⟨"ActivateEscrowRequest", ["funding_transaction_hash"],
      shown (fun h => .object [("funding_transaction_hash", Json.ofText? h)]) (readActivation .text)⟩,
    ⟨"CancelEscrowRequest", ["reason"],
      shown (fun r => .object [("reason", Json.ofText? r)]) (readReason .text)⟩,
    ⟨"ExpireEscrowRequest", ["reason"],
      shown (fun r => .object [("reason", Json.ofText? r)]) (readReason .text)⟩,
    ⟨"RaiseDisputeRequest", ["reason"],
      shown (fun r => .object [("reason", .text r)]) (readDispute .text)⟩,
    ⟨"ResolveDisputeRequest", ["resolution", "note"],
      shown ResolveRequest.toJson (ResolveRequest.read .text)⟩,
    ⟨"EscrowOverviewQuery",
      ["role", "status", "token", "created_from", "created_to", "page", "page_size", "sort_by",
        "sort_order"],
      shown OverviewQuery.toJson (OverviewQuery.read .text)⟩,
    ⟨"ConsistencyCheckRequest", ["escrow_ids"],
      shown (fun is => .object [("escrow_ids", .list (is.map fun i => .text i.text))])
        (readCheck .text)⟩,
    response "PartyResponse" party, response "ConditionResponse" condition,
    response "EscrowResponse" escrow, response "EscrowListResponse" escrowList,
    response "EscrowEventResponse" event, response "EscrowOverviewItem" overviewItem,
    response "EscrowOverviewResponse" overview, response "FieldMismatchResponse" mismatch,
    response "ConsistencyReportResponse" report, response "ConsistencySummaryResponse" summary,
    response "ConsistencyResultResponse" checkResult, response "HealthResponse" health]

/-- The shape with a name. -/
def find? (ctx : Decimal.Context) (name : String) : Option Schema :=
  (all ctx).find? fun s => s.name = name

/-- The most levels of objects and lists inside each other that have something in them. -/
def levelsMost : Nat := 200

/-- Reads a document in a shape, by its value. A document with half of a pair is none. -/
def readText (s : Schema) (v : Json) : Reading Json :=
  if levelsMost + 1 < v.depth ∨ v.isBroken then Reading.fault .jsonInvalid else s.read v

/-- The members of a given value that a shape knows; metadata count under either name. -/
def given (s : Schema) (v : Json) : List String :=
  match v with
  | .object ms =>
    let ms := if s.name = "ConditionResponse" then
        ms.filterMap fun (k, x) =>
          if k = "metadata" then none else if k = "metadata_json" then some ("metadata", x) else some (k, x)
      else ms
    givenFields s.fields ms
  | _ => []

end Schema

end Custody

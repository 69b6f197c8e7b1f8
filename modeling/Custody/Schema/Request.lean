import Custody.Schema.Leaf

/-!
# Requests

What users may ask for, as types, each with its reader and with the JSON it is shown as. Fields that
are left out have the values given here; fields that a request does not know are passed over.
-/

namespace Custody

/-- A field that was left out, or given with a value. -/
abbrev Given (α : Type) := Option α

/-- A party to add to a new escrow. -/
structure PartyInput where
  user : String
  role : Role
deriving DecidableEq, Repr

/-- A condition of a new escrow. -/
structure ConditionInput where
  description : String
  type : ConditionType
  metadata : Option Members
deriving Repr

/-- The terms of a new escrow. -/
structure CreateRequest where
  title : String
  description : Option String
  amount : Decimal
  asset : Option String
  type : EscrowType
  parties : List PartyInput
  conditions : List ConditionInput
  deadline : Option Moment
deriving Repr

/-- New terms of an escrow; what is left out stays. -/
structure UpdateRequest where
  title : Given (Option String)
  description : Given (Option String)
  deadline : Given (Option Moment)
deriving DecidableEq, Repr

/-- The filters and the page of an overview. -/
structure OverviewQuery where
  role : OverviewRole
  status : Option OverviewStatus
  token : Option String
  createdFrom : Option Moment
  createdTo : Option Moment
  page : Int
  pageSize : Int
  sortBy : OverviewSort
  sortOrder : SortOrder
deriving DecidableEq, Repr

/-- An arbitrator's decision. -/
structure ResolveRequest where
  resolution : Resolution
  note : Option String
deriving DecidableEq, Repr

/-! ## Readers -/

/-- Reads a party. -/
def PartyInput.read (src : Source) : Reader PartyInput :=
  model src fun ms =>
    Except.ok PartyInput.mk
      |> Reading.arg (required ms "user_id" (textIn 1 (some 64)))
      |> Reading.arg (required ms "role" (wordOf Role))

/-- Reads a condition. -/
def ConditionInput.read (src : Source) : Reader ConditionInput :=
  model src fun ms =>
    Except.ok ConditionInput.mk
      |> Reading.arg (required ms "description" (textIn 1 (some 2000)))
      |> Reading.arg (defaulted ms "type" (wordOf ConditionType) .manual)
      |> Reading.arg (defaulted ms "metadata" (nullable anyObject) none)

/-- Reads the terms of a new escrow; the digits of the amount are judged in a context of arithmetic. -/
def CreateRequest.read (ctx : Decimal.Context) (src : Source) : Reader CreateRequest :=
  model src fun ms =>
    Except.ok CreateRequest.mk
      |> Reading.arg (required ms "title" (textIn 1 (some 200)))
      |> Reading.arg (defaulted ms "description" (nullable (textIn 0 (some 5000))) none)
      |> Reading.arg (required ms "amount" (Custody.amount ctx src))
      |> Reading.arg (defaulted ms "asset" (nullable (textIn 1 (some 12))) none)
      |> Reading.arg (defaulted ms "type" (wordOf EscrowType) .standard)
      |> Reading.arg (defaulted ms "parties" (listOf (PartyInput.read src) 0 none) [])
      |> Reading.arg (defaulted ms "conditions" (listOf (ConditionInput.read src) 0 none) [])
      |> Reading.arg (defaulted ms "expires_at" (nullable (moment src)) none)

/-- Reads new terms. -/
def UpdateRequest.read (src : Source) : Reader UpdateRequest :=
  model src fun ms =>
    Except.ok UpdateRequest.mk
      |> Reading.arg (optional ms "title" (nullable (textIn 1 (some 200))))
      |> Reading.arg (optional ms "description" (nullable (textIn 0 (some 5000))))
      |> Reading.arg (optional ms "expires_at" (nullable (moment src)))

/-- Reads the funding reference of an activation. -/
def readActivation (src : Source) : Reader (Option String) :=
  model src fun ms =>
    defaulted ms "funding_transaction_hash" (nullable (textIn 0 (some 128))) none

/-- Reads the reason of a cancellation or an expiry. -/
def readReason (src : Source) : Reader (Option String) :=
  model src fun ms => defaulted ms "reason" (nullable (textIn 0 (some 1000))) none

/-- Reads the reason of a dispute, which has to be there. -/
def readDispute (src : Source) : Reader String :=
  model src fun ms => required ms "reason" (textIn 1 (some 2000))

/-- Reads a decision. -/
def ResolveRequest.read (src : Source) : Reader ResolveRequest :=
  model src fun ms =>
    Except.ok ResolveRequest.mk
      |> Reading.arg (required ms "resolution" (wordOf Resolution))
      |> Reading.arg (defaulted ms "note" (nullable (textIn 0 (some 2000))) none)

/-- Reads an overview query. -/
def OverviewQuery.read (src : Source) : Reader OverviewQuery :=
  model src fun ms =>
    Except.ok OverviewQuery.mk
      |> Reading.arg (defaulted ms "role" (wordOf OverviewRole) .any)
      |> Reading.arg (defaulted ms "status" (nullable (wordOf OverviewStatus)) none)
      |> Reading.arg (defaulted ms "token" (nullable (textIn 0 none)) none)
      |> Reading.arg (defaulted ms "created_from" (nullable (moment src)) none)
      |> Reading.arg (defaulted ms "created_to" (nullable (moment src)) none)
      |> Reading.arg (defaulted ms "page" (wholeIn 1 none) 1)
      |> Reading.arg (defaulted ms "page_size" (wholeIn 1 (some 100)) 20)
      |> Reading.arg (defaulted ms "sort_by" (wordOf OverviewSort) .createdAt)
      |> Reading.arg (defaulted ms "sort_order" (wordOf SortOrder) .desc)

/-- Reads the identifiers of a consistency check, of which there are up to a thousand. -/
def readCheck (src : Source) : Reader (List Identifier) :=
  model src fun ms => required ms "escrow_ids" (listOf identifier 1 (some 1000))

/-! ## What is shown -/

/-- A moment or null. -/
def momentJson (m : Option Moment) : Json := Json.ofText? (m.map Moment.responseText)

/-- A party as JSON. -/
def PartyInput.toJson (p : PartyInput) : Json :=
  .object [("user_id", .text p.user), ("role", .text (word p.role))]

/-- A condition as JSON. -/
def ConditionInput.toJson (c : ConditionInput) : Json :=
  .object [("description", .text c.description), ("type", .text (word c.type)),
    ("metadata", (c.metadata.map Json.object).getD .null)]

/-- The terms of a new escrow as JSON. -/
def CreateRequest.toJson (r : CreateRequest) : Json :=
  .object [("title", .text r.title), ("description", Json.ofText? r.description),
    ("amount", .text r.amount.text), ("asset", Json.ofText? r.asset),
    ("type", .text (word r.type)), ("parties", .list (r.parties.map PartyInput.toJson)),
    ("conditions", .list (r.conditions.map ConditionInput.toJson)),
    ("expires_at", momentJson r.deadline)]

/-- New terms as JSON. -/
def UpdateRequest.toJson (r : UpdateRequest) : Json :=
  .object [("title", Json.ofText? r.title.join), ("description", Json.ofText? r.description.join),
    ("expires_at", momentJson r.deadline.join)]

/-- A decision as JSON. -/
def ResolveRequest.toJson (r : ResolveRequest) : Json :=
  .object [("resolution", .text (word r.resolution)), ("note", Json.ofText? r.note)]

/-- An overview query as JSON. -/
def OverviewQuery.toJson (q : OverviewQuery) : Json :=
  .object [("role", .text (word q.role)), ("status", Json.ofText? (q.status.map word)),
    ("token", Json.ofText? q.token), ("created_from", momentJson q.createdFrom),
    ("created_to", momentJson q.createdTo), ("page", .int q.page), ("page_size", .int q.pageSize),
    ("sort_by", .text (word q.sortBy)), ("sort_order", .text (word q.sortOrder))]

end Custody

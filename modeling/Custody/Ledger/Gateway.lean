import Custody.Address
import Custody.Ledger.Simulated
import Custody.Schema.Leaf
import Custody.Json.Encoded
import Custody.Json.Printer
import Custody.Text.Base64

/-!
# The settlement gateway

A ledger behind a gateway that answers requests. A settlement is asked for once and never again: a
lost answer is a failed settlement. Reading is repeated while the connection fails, up to a number
of attempts, and an answer of any kind ends it. An address that cannot be read is not asked at all.

> `readAttempts_length`: reading takes no more requests than attempts.
-/

namespace Custody

namespace Gateway

/-- What comes of a request. A response is a status and the bytes of a body; `spare` says how much room
for nesting the client has left when it reads them. A broken request has the name of its failure;
`transport` says whether it was the connection that failed. -/
inductive Reply where
  | response (status : Int) (body : List UInt8) (spare : Nat)
  | broken (name message : String) (transport : Bool)
deriving DecidableEq, Repr, Inhabited

/-- A request that was sent. -/
structure Request where
  method : String
  path : String
  authorization : Option String
  body : String
deriving DecidableEq, Repr

/-- How a gateway is reached. -/
structure Config where
  baseUrl : String
  apiKey : String
  attempts : Int
deriving DecidableEq, Repr

/-- A gateway whose address and key can be used. -/
structure Connection where
  base : Address
  authorization : Option String
  attempts : Nat
deriving DecidableEq, Repr

/-- The credentials of a user of the gateway. -/
def basicCredentials (user password : String) : String :=
  "Basic " ++ String.ofList (Text.encode64 ((Utf8.encode (user ++ ":" ++ password)).map UInt8.toNat))

/-- The connection that a configuration describes. A user in the address takes the place of the key.
There is always one attempt. -/
def Config.connect (c : Config) : Except Failure Connection :=
  match (Address.ofText? c.baseUrl).bind Address.opened? with
  | none => .error .badAddress
  | some base =>
    let bearer := "Bearer " ++ c.apiKey
    if !Text.isAscii bearer then .error (.value (.header bearer))
    else
      let authorization := match base.credentials? with
        | some (user, password) => some (basicCredentials user password)
        | none => if c.apiKey = "" then none else some bearer
      .ok ⟨base, authorization, (max 1 c.attempts).toNat⟩

namespace Connection

/-- A request for a target below the gateway, and the address that it goes to. -/
def request? (c : Connection) (method target body : String) : Option (Address × Request) :=
  (c.base.below? target).map fun a => (a, ⟨method, String.ofList a.target, c.authorization, body⟩)

/-- The request for a settlement. -/
def settleRequest? (c : Connection) (escrow beneficiary : String) : Option (Address × Request) :=
  c.request? "POST" ("/escrows/" ++ escrow ++ "/settle")
    (Json.object [("beneficiary", .text beneficiary)]).toText

/-- The request for a view. -/
def fetchRequest? (c : Connection) (escrow : String) : Option (Address × Request) :=
  c.request? "GET" ("/escrows/" ++ escrow) ""

end Connection

/-! ## Settling -/

/-- Whether a status tells of success. -/
def isSuccess (status : Int) : Bool := 200 ≤ status && status < 300

/-- A settlement that failed at the gateway. -/
def settleFault {α : Type} (message : String) : Except Failure α :=
  .error (.escrow (.ledger (.settlement message none)))

/-- What a reply to a settlement means: the transaction that it names, or why there is none. The
answer of an address that does not tell its kind cannot be taken. -/
def settleOutcome (a : Address) : Reply → Except Failure LooseText
  | .broken _ m _ => settleFault ("Ledger unreachable: " ++ m)
  | .response status body spare =>
    if !a.tellsKind then .error (.value (.address a.text))
    else if !isSuccess status then
      settleFault ("Ledger rejected settlement: HTTP " ++ toString status ++ " " ++
        String.ofList ((Utf8.legible body).take 200))
    else
      match Json.ofDocument spare body with
      | .error (.tooDeep inObject) => .error (.tooDeep inObject)
      | r =>
        match r.toOption.bind (Json.get? "tx_hash") with
        | some t => .ok t.spelled
        | none => settleFault "Ledger returned a malformed settle response"

/-! ## Reading -/

/-- A view as the gateway tells it. -/
structure View where
  status : Status
  amount : Decimal
  released : Bool
  transaction : Option LooseText
  deadline : Option Moment
deriving DecidableEq, Repr

/-- A status in any case. -/
def statusField : Reader Status
  | .text s => wordOf Status (.text (Text.upper s))
  | v => wordOf Status v

/-- Reads a view. -/
def View.read : Reader View :=
  model .value fun ms =>
    Except.ok View.mk
      |> Reading.arg (required ms "status" statusField)
      |> Reading.arg (required ms "amount" (decimal .value))
      |> Reading.arg (required ms "is_released" truth)
      |> Reading.arg (defaulted ms "release_tx_hash" (nullable looseText) none)
      |> Reading.arg (defaulted ms "expires_at" (nullable (moment .value)) none)

/-- Why no view came of a read. A broken request that is no failure of the connection is told as it
is. -/
inductive FetchFault where
  | failed (f : Failure)
  | unreadable (e : Json.ReadError)
  | wrongShape (findings : List Finding)
  | uncaught (name : String)
deriving DecidableEq, Repr

/-- A read that failed at the gateway. -/
def fetchFault {α : Type} (e : LedgerError) : Except FetchFault α := .error (.failed (.escrow (.ledger e)))

/-- What the reply that ends a read means. -/
def fetchOutcome (a : Address) (escrow : String) : Reply → Except FetchFault View
  | .broken name m transport =>
    if transport then fetchFault (.fetch ("Ledger unreachable: " ++ m))
    else .error (.uncaught name)
  | .response status body spare =>
    if !a.tellsKind then .error (.failed (.value (.address a.text)))
    else if status = 404 then fetchFault (.unknownEscrow escrow)
    else if 400 ≤ status ∧ status ≤ 599 then
      fetchFault (.fetch ("Ledger read failed: HTTP " ++ toString status))
    else match Json.ofDocument spare body with
      | .error (.tooDeep inObject) => .error (.failed (.tooDeep inObject))
      | .error e => .error (.unreadable e)
      | .ok v =>
        match View.read v with
        | .ok w => .ok w
        | .error fs => .error (.wrongShape fs)

/-- The message of a view that could not be understood, without its details. -/
def malformedMessage (escrow : String) : String := "Malformed ledger view for " ++ escrow

/-- Whether a reply leads to another attempt. -/
def Reply.isRetried : Reply → Bool
  | .broken _ _ transport => transport
  | .response .. => false

/-- The replies that a read takes: the next ones up to the first that is not retried, as many as
there are attempts left. `script i` is the reply to the `i`-th request. -/
def readAttempts (script : Nat → Reply) : Nat → Nat → List Reply
  | 0, _ => []
  | left + 1, i =>
    let r := script i
    if r.isRetried then r :: readAttempts script left (i + 1) else [r]

/-- A read: the requests it sent and what came of it. -/
def Connection.fetch (c : Connection) (script : Nat → Reply) (escrow : String) :
    List Request × Except FetchFault View :=
  match c.fetchRequest? escrow with
  | none => ([], .error (.failed .badAddress))
  | some (a, q) =>
    let replies := readAttempts script c.attempts 0
    (replies.map fun _ => q,
      match replies.getLast? with
      | some r => fetchOutcome a escrow r
      | none => fetchFault (.fetch "Ledger unreachable: "))

/-- A settlement: the one request it sent and what came of it. -/
def Connection.settle (c : Connection) (script : Nat → Reply) (escrow beneficiary : String) :
    List Request × Except Failure LooseText :=
  match c.settleRequest? escrow beneficiary with
  | none => ([], .error .badAddress)
  | some (a, q) => ([q], settleOutcome a (script 0))

theorem readAttempts_length (script : Nat → Reply) (n i : Nat) :
    (readAttempts script n i).length ≤ n := by
  induction n generalizing i with
  | zero => simp [readAttempts]
  | succ n ih =>
    simp only [readAttempts]
    split
    · simp [ih]
    · simp

/-- The replies of a script: the last one repeats. -/
def scripted (replies : List Reply) (i : Nat) : Reply :=
  match replies[i]? with
  | some r => r
  | none => replies.getLastD default

end Gateway

end Custody

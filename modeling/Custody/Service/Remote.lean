import Custody.Ledger.Books
import Custody.Service

/-!
# A service with a gateway

The ledger of a deployment stands behind a gateway, with books of its own that no transaction of the
service can take back. An operation asks it at most once; the passage of that request is chosen by the
network, and the service goes by the reply alone. A transaction that is a broken text is taken like any
other, and then cannot be written down.

> `LooseText.written_eq_ok_iff`: the sound texts can be written down.
> `perform_store_of_error`: an operation that fails leaves the records as they were.
-/

namespace Custody

open Gateway (Books Connection Passage Reply)

/-- A text as the store takes it: a broken one ends the transaction that writes it. -/
def LooseText.written : LooseText → Except Failure String
  | .sound s => .ok s
  | .broken t => .error (.value (.unencodable t))

theorem LooseText.written_eq_ok_iff {t : LooseText} {s : String} :
    t.written = .ok s ↔ t = .sound s := by
  cases t <;> simp [written]

/-- What an operation makes of the reply to a request for a settlement. -/
def Gateway.Connection.answer (c : Connection) (reply : SettleRequest → Reply) (q : SettleRequest) :
    LedgerAnswer :=
  { result := (c.settle (fun _ => reply q) q.escrow.text q.beneficiary).2 >>= LooseText.written
    log := match c.settleRequest? q.escrow.text q.beneficiary with
      | some (a, _) => settleLog a q.escrow.text (reply q)
      | none => [] }

/-- A service at a moment of its clock, and the books of the gateway that it asks. -/
structure Remote where
  clock : Int
  store : Store
  counters : Counters
  connection : Connection
  books : Books
  dispatcher : Dispatcher
  brokenDispatcher : Option String
  database : Option String
  lease : Option Lease
  settings : Settings

namespace Remote

/-- A service without records, and a gateway that has settled nothing. -/
def start (clock : Int) (settings : Settings) (dispatcher : Dispatcher) (lease : Option Lease)
    (connection : Connection) : Remote :=
  { clock := clock, store := Store.empty, counters := ⟨0, 0, 0⟩, connection := connection
    books := Books.empty, dispatcher := dispatcher, brokenDispatcher := none, database := none
    lease := lease, settings := settings }

/-- What the clock shows. -/
def now (r : Remote) : Moment := Moment.utc r.clock

/-- What an operation makes of a settlement whose request goes this way. -/
def ask (r : Remote) (p : Passage) : SettleRequest → LedgerAnswer :=
  r.connection.answer fun q => r.books.seen q.escrow.text q.beneficiary p

/-- What surrounds an operation whose request to the gateway goes this way. -/
def surroundings (r : Remote) (p : Passage) : Surroundings :=
  { now := r.now, defaultAsset := r.settings.defaultAsset, database := r.database
    lease := r.lease, lockWait := .real r.settings.lockWait, ask := r.ask p }

/-- The request that is sent, if there is one and an address to send it to. -/
def sent? (r : Remote) (asked : Option SettleRequest) : Option SettleRequest :=
  asked.filter fun q => (r.connection.settleRequest? q.escrow.text q.beneficiary).isSome

/-- The books after an operation whose request goes this way. -/
def booksAfter (r : Remote) (p : Passage) (asked : Option SettleRequest) : Books :=
  match r.sent? asked with
  | some q => r.books.after q.escrow.text q.beneficiary p
  | none => r.books

/-- What is left of an operation whose request goes this way. -/
def outcome (r : Remote) (by' : Caller) (op : Operation) (p : Passage) : Outcome Answer :=
  op.run (r.surroundings p) by' r.store r.store r.counters

/-- Carries out an operation whose request to the gateway goes this way. -/
def perform (r : Remote) (by' : Caller) (op : Operation) (p : Passage) :
    Except Failure Answer × Remote × Effects :=
  let o := r.outcome by' op p
  let books := r.booksAfter p o.asked
  let d := r.dispatcher.send r.brokenDispatcher r.now o.announced
  (o.result,
    { r with store := o.store, counters := o.counters, books := books },
    { sent := d.sent, queued := d.queued
      settled := books.settlements.drop r.books.settlements.length
      log := o.log ++ o.closing ++ d.log })

/-- An operation that fails leaves the records as they were, also where the gateway has settled. -/
theorem perform_store_of_error {r : Remote} {by' : Caller} {op : Operation} {p : Passage}
    {f : Failure} (h : (r.perform by' op p).1 = .error f) :
    (r.perform by' op p).2.1.store = r.store :=
  Operation.run_store_of_error h

end Remote

/-! ## Runs -/

/-- What can happen to a service with a gateway. -/
inductive RemoteHappening where
  | operation (by' : Caller) (op : Operation) (p : Passage)
  | clock (instant : Int)
  | dispatcherBreaks (reason : Option String)
  | databaseBreaks (reason : Option String)
  | lease (l : Option Lease)

namespace Remote

/-- The service after a happening. -/
def after (r : Remote) : RemoteHappening → Remote
  | .operation by' op p => (r.perform by' op p).2.1
  | .clock i => { r with clock := i }
  | .dispatcherBreaks x => { r with brokenDispatcher := x }
  | .databaseBreaks x => { r with database := x }
  | .lease l => { r with lease := l }

/-- The service after happenings, one after another. -/
def run (r : Remote) (hs : List RemoteHappening) : Remote := hs.foldl after r

/-- A happening in which the gateway processed a request for an escrow while the service answered its
caller with a failure. -/
def Unheard (r : Remote) (x : Identifier) : RemoteHappening → Prop
  | .operation by' op p =>
    (∃ q, r.sent? (r.outcome by' op p).asked = some q ∧ q.escrow = x) ∧ p.arrives = true ∧
      ∃ f, (r.perform by' op p).1 = .error f
  | _ => False

end Remote

end Custody

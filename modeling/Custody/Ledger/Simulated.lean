import Custody.Reconciliation
import Custody.Log

/-!
# The simulated ledger

A ledger in memory: it has views of escrows, and it remembers what it settled. A settlement gets
the next transaction and brings an existing view to the settled state; the ledger can be told to
fail instead, on every settlement or on reading one escrow.

> `settle_failing`: a failing ledger is left as it was.
-/

namespace Custody

/-- Funds paid out: for which escrow, to whom, and in which transaction. -/
structure Settlement where
  escrow : String
  beneficiary : String
  transaction : String
deriving DecidableEq, Repr, Inhabited

/-- The name of the `n`-th transaction: 32 hexadecimal digits written twice. -/
def transactionName (n : Nat) : String :=
  let ds := Text.digitsOfWidth 16 32 n
  String.ofList (ds ++ ds)

/-- The ledger in memory. `count` is the number of transactions so far. -/
structure SimulatedLedger where
  views : List (String × RawState)
  settlements : List Settlement
  failing : Option Failure
  unreadable : List (String × Failure)
  count : Nat
deriving Repr

namespace SimulatedLedger

/-- A ledger on which nothing has happened. -/
def empty : SimulatedLedger := ⟨[], [], none, [], 0⟩

/-- The view of an escrow. -/
def view? (l : SimulatedLedger) (escrow : String) : Option RawState :=
  (l.views.find? fun v => v.1 = escrow).map (·.2)

/-- The ledger with the view of an escrow set. -/
def record (l : SimulatedLedger) (escrow : String) (v : RawState) : SimulatedLedger :=
  { l with views := (escrow, v) :: l.views.filter fun w => w.1 ≠ escrow }

/-- A view once the escrow is settled. -/
def settledView (transaction : String) (v : RawState) : RawState :=
  { v with status := .text (word Status.completed), released := .bool true,
           transaction := .text transaction }

/-- What the ledger answers to a settlement: a transaction, unless it is failing. -/
def answer (l : SimulatedLedger) : Except Failure String :=
  match l.failing with
  | some f => .error f
  | none => .ok (transactionName (l.count + 1))

/-- The ledger after a settlement was asked for. -/
def settle (l : SimulatedLedger) (escrow beneficiary : String) : SimulatedLedger :=
  match l.answer with
  | .error _ => l
  | .ok t =>
    { l with
      views := l.views.map fun (e, v) => if e = escrow then (e, settledView t v) else (e, v)
      settlements := l.settlements ++ [⟨escrow, beneficiary, t⟩]
      count := l.count + 1 }

/-- The entry that a settlement leaves in the log. -/
def settlementLog (escrow beneficiary transaction : String) : LogEntry :=
  .info "ledger.settlement_simulated"
    [("escrow_id", .text escrow), ("beneficiary", .text beneficiary), ("tx_hash", .text transaction)]

/-- Reading the view of an escrow. -/
def fetch (l : SimulatedLedger) (escrow : String) : Except Failure RawState :=
  match l.unreadable.find? fun u => u.1 = escrow with
  | some (_, f) => .error f
  | none =>
    match l.view? escrow with
    | some v => .ok v
    | none => .error (.escrow (.ledger (.unknownEscrow escrow)))

/-- The ledger with reading an escrow made to fail. -/
def refuse (l : SimulatedLedger) (escrow : String) (f : Failure) : SimulatedLedger :=
  { l with unreadable := (escrow, f) :: l.unreadable }

theorem settle_failing {l : SimulatedLedger} {f : Failure} (h : l.failing = some f)
    (e b : String) : l.settle e b = l := by
  simp [settle, answer, h]

end SimulatedLedger

end Custody

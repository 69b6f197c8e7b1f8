import Custody.Service.Transaction
import Custody.PartySet

/-!
# Creation

A new escrow is judged by its terms before anything is numbered or written: the amount, the list of
parties, a seller for every set of conditions, the type. Then its record, its parties, its
conditions and the first event are written in one transaction. No lock is needed, for nobody else
can know the escrow yet.

> `createEscrow_store_of_error`: a creation that fails leaves the store as it was.
-/

namespace Custody

/-- The terms of a new escrow, as its creator states them. -/
structure NewEscrow where
  title : Option String
  description : Option String
  amount : Decimal
  asset : Option String
  type : Except UnknownWord EscrowType
  parties : List PartyInput
  conditions : List ConditionInput
  deadline : Option Moment

namespace NewEscrow

/-- The terms of a request. -/
def ofRequest (r : CreateRequest) : NewEscrow :=
  { title := some r.title, description := r.description, amount := r.amount, asset := r.asset
    type := .ok r.type, parties := r.parties, conditions := r.conditions, deadline := r.deadline }

/-- The parties and the type of the escrow, unless the terms are no definition of one. -/
def define (n : NewEscrow) (creator : String) : Except Failure (List Party × EscrowType) := do
  match n.amount.compare? Decimal.zero with
  | none => throw (.decimal .undefinedValue)
  | some .gt => pure ()
  | some _ => throw (.escrow (.invalidDefinition .amountNotPositive))
  let ps ← match formParties creator n.parties with
    | .ok ps => pure ps
    | .error f => throw (.escrow (.invalidDefinition f))
  if !n.conditions.isEmpty ∧ recipient? ps = none then
    throw (.escrow (.invalidDefinition .conditionsWithoutSeller))
  match n.type with
  | .ok t => return (ps, t)
  | .error u => throw (.value (.word u))

/-- The asset of the escrow: the stated one, unless it is empty. -/
def assetOr (n : NewEscrow) (fallback : String) : String := reasonOr fallback n.asset

/-- The row that is handed to the store. -/
def row (n : NewEscrow) (creator asset : String) (t : EscrowType) : EscrowRow :=
  { title := n.title, description := n.description, amount := some n.amount, asset := asset
    type := word t, status := word Status.pending, creator := some creator, released := false
    releaseTransaction := none, fundingTransaction := none, deadline := n.deadline }

/-- The record of the escrow. -/
def record (n : NewEscrow) (id : Identifier) (creator asset : String) (t : EscrowType)
    (ps : List Party) (now : Moment) : Escrow :=
  { id := id, title := n.title.getD "", description := n.description, amount := n.amount
    asset := asset, type := t, status := .pending, creator := creator, released := false
    releaseTransaction := none, fundingTransaction := none, deadline := n.deadline, parties := ps
    createdAt := now, updatedAt := now }

end NewEscrow

/-- The `k`-th condition, an open one of an escrow. -/
def ConditionInput.numbered (c : ConditionInput) (escrow : Identifier) (k : Nat) : Condition :=
  { id := Identifier.condition k, escrow := escrow, description := c.description, type := c.type
    metadata := c.metadata, met := false, metAt := none, metBy := none }

/-- Conditions of an escrow, numbered from `k` on. -/
def numberConditions (escrow : Identifier) : Nat → List ConditionInput → List Condition
  | _, [] => []
  | k, c :: cs => c.numbered escrow k :: numberConditions escrow (k + 1) cs

/-- The first event of an escrow. -/
def creationDraft (e : Escrow) (conditionCount : Nat) (by' : Caller) : EventDraft :=
  ⟨.created, by'.user, none, some .pending,
    .created e.title e.amount e.asset e.parties conditionCount, by'.address⟩

/-- The entry that tells of a new escrow. -/
def createdLog (e : Escrow) (conditionCount : Nat) : LogEntry :=
  about e.id .info "escrow.created" [("amount", .text e.amount.text), ("asset", .text e.asset),
    ("conditions", .int conditionCount)]

/-- The store with a new escrow and its conditions. -/
def Store.add (s : Store) (e : Escrow) (cs : List Condition) : Store :=
  { s with escrows := s.escrows ++ [e], conditions := s.conditions ++ cs }

/-- Creates an escrow in the name of the caller. -/
def createEscrow (env : Surroundings) (by' : Caller) (n : NewEscrow) (s : Store) (c : Counters) :
    Outcome Escrow :=
  match n.define by'.user with
  | .error f => .refused s c [] f
  | .ok (ps, t) =>
    let asset := n.assetOr env.defaultAsset
    let e := n.record (Identifier.escrow (c.escrows + 1)) by'.user asset t ps env.now
    let cs := numberConditions e.id (c.conditions + 1) n.conditions
    let c' : Counters :=
      { c with escrows := c.escrows + 1, conditions := c.conditions + cs.length }
    match env.database with
    | some f => .refused s c' [] (.breakdown f)
    | none =>
      match (n.row by'.user asset t).fault? with
      | some f => .refused s c' [] (.store f)
      | none =>
        { result := .ok e
          store := (s.add e cs).enter env.now e.id (c.events + 1) (creationDraft e cs.length by')
          counters := { c' with events := c.events + 1 }
          log := []
          closing := [createdLog e cs.length]
          asked := none
          announced := some ((⟨.created, []⟩ : Announcement).about e) }

/-- A creation that fails leaves the store as it was. -/
theorem createEscrow_store_of_error {env : Surroundings} {by' : Caller} {n : NewEscrow} {s : Store}
    {c : Counters} {f : Failure} (h : (createEscrow env by' n s c).result = .error f) :
    (createEscrow env by' n s c).store = s := by
  unfold createEscrow at h ⊢
  split
  · rfl
  · rename_i p t hd
    simp only [hd] at h ⊢
    split
    · rfl
    · rename_i hb
      simp only [hb] at h
      split
      · rfl
      · rename_i hr
        simp [hr] at h

end Custody

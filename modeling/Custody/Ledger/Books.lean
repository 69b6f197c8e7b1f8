import Custody.Ledger.Gateway

/-!
# The books of the gateway

The gateway settles an escrow once, on the first request for it that it processes, and answers every
later one with the transaction of the first. What it answers need not arrive: a request can be lost on
its way to the gateway, and an answer on its way back, and the client sees the same of both.

    answered   processed, and the answer arrives
    lost       processed, and something that names no transaction arrives
    missed     not processed, and something that names no transaction arrives

A broken text counts as no transaction: it cannot be written down.

> `process_of_ne_nil`: a repeated request changes nothing.
> `nodup_process`: no escrow is settled twice.
-/

namespace Custody

namespace Gateway

/-! ## Books -/

/-- What the gateway has settled. -/
structure Books where
  settlements : List Settlement
deriving DecidableEq, Repr

namespace Books

/-- Nothing is settled. -/
def empty : Books := ⟨[]⟩

/-- The settlements of an escrow. -/
def settlementsOf (b : Books) (escrow : String) : List Settlement :=
  b.settlements.filter fun q => q.escrow = escrow

/-- The settlement of an escrow. -/
def settled? (b : Books) (escrow : String) : Option Settlement :=
  b.settlements.find? fun q => q.escrow = escrow

/-- The settlement that a request is answered with: the one of the first request, or a new one in the
transaction `fresh`. -/
def settlement (b : Books) (escrow beneficiary fresh : String) : Settlement :=
  (b.settled? escrow).getD ⟨escrow, beneficiary, fresh⟩

/-- The books once a request has been processed. -/
def process (b : Books) (escrow beneficiary fresh : String) : Books :=
  match b.settled? escrow with
  | some _ => b
  | none => ⟨b.settlements ++ [⟨escrow, beneficiary, fresh⟩]⟩

end Books

/-! ## Passages -/

/-- The answer to a request that was processed. The client needs no more room to read it than there
always is. -/
def settleAnswer (transaction : String) : Reply :=
  .response 200 (Utf8.encode (Json.object [("tx_hash", .text transaction)]).toText) 0

/-- A reply that names no transaction which could be written down, whatever address it comes from. -/
structure Silence where
  reply : Reply
  unnamed : ∀ a t, settleOutcome a reply ≠ .ok (.sound t)

/-- A connection that breaks names no transaction. -/
def Silence.broken (name message : String) (transport : Bool) : Silence :=
  ⟨.broken name message transport, fun _ _ h => nomatch h⟩

/-- Nor does a rejection. -/
def Silence.rejected (status : Int) (body : List UInt8) (spare : Nat) (h : isSuccess status = false) :
    Silence :=
  ⟨.response status body spare, fun a t ht => by
    simp only [settleOutcome, h] at ht
    split at ht <;> cases ht⟩

/-- What becomes of a request for a settlement and of the answer to it. `fresh` is the transaction in
which the gateway settles, unless it has settled the escrow before. -/
inductive Passage where
  | answered (fresh : String)
  | lost (fresh : String) (seen : Silence)
  | missed (seen : Silence)

/-- Whether the request was processed. -/
def Passage.arrives : Passage → Bool
  | .answered _ | .lost .. => true
  | .missed _ => false

namespace Books

/-- What the client sees of a request that went this way. -/
def seen (b : Books) (escrow beneficiary : String) : Passage → Reply
  | .answered fresh => settleAnswer (b.settlement escrow beneficiary fresh).transaction
  | .lost _ s | .missed s => s.reply

/-- The books after a request that went this way. -/
def after (b : Books) (escrow beneficiary : String) : Passage → Books
  | .answered fresh | .lost fresh _ => b.process escrow beneficiary fresh
  | .missed _ => b

end Books

/-! ## Log -/

/-- The entries that a settlement leaves in the log, by what the client has seen of it. An answer that
cannot be taken, or names no transaction, leaves none. -/
def settleLog (a : Address) (escrow : String) : Reply → List LogEntry
  | .broken _ m _ =>
    [⟨.error, "ledger.settlement_unreachable", [("escrow_id", .text escrow), ("error", .text m)]⟩]
  | .response status body spare =>
    if !a.tellsKind then []
    else if !isSuccess status then
      [⟨.error, "ledger.settlement_rejected",
        [("escrow_id", .text escrow), ("status_code", .int status)]⟩]
    else match (Json.ofDocument spare body).toOption.bind (Json.get? "tx_hash") with
      | some t => [.info "ledger.settlement_complete" [("escrow_id", .text escrow), ("tx_hash", t)]]
      | none => []

/-! ## Laws -/

namespace Books

variable {b : Books} {x y : String}

theorem settled?_eq_head? (b : Books) (x : String) : b.settled? x = (b.settlementsOf x).head? := by
  rw [settled?, settlementsOf, List.head?_filter]

/-- The first request settles. -/
theorem process_of_eq_nil (h : b.settlementsOf x = []) (u t : String) :
    b.process x u t = ⟨b.settlements ++ [⟨x, u, t⟩]⟩ := by
  rw [process, settled?_eq_head?, h]
  rfl

/-- A later one changes nothing. -/
theorem process_of_ne_nil (h : b.settlementsOf x ≠ []) (u t : String) : b.process x u t = b := by
  obtain ⟨q, qs, hq⟩ := List.exists_cons_of_ne_nil h
  rw [process, settled?_eq_head?, hq]
  rfl

/-- After a request the escrow is settled, as it was before or in the new transaction. -/
theorem settlementsOf_process_self (b : Books) (x u t : String) :
    (b.process x u t).settlementsOf x =
      if b.settlementsOf x = [] then [⟨x, u, t⟩] else b.settlementsOf x := by
  split
  next h =>
    rw [process_of_eq_nil h]
    show (b.settlements ++ [(⟨x, u, t⟩ : Settlement)]).filter _ = _
    rw [List.filter_append]
    show b.settlementsOf x ++ _ = _
    rw [h]
    simp
  next h => rw [process_of_ne_nil h]

/-- Other escrows are left alone. -/
theorem settlementsOf_process_of_ne (h : y ≠ x) (u t : String) :
    (b.process x u t).settlementsOf y = b.settlementsOf y := by
  by_cases hx : b.settlementsOf x = []
  · rw [process_of_eq_nil hx]
    show (b.settlements ++ [(⟨x, u, t⟩ : Settlement)]).filter _ = b.settlements.filter _
    rw [List.filter_append]
    simp [Ne.symm h]
  · rw [process_of_ne_nil hx]

/-- What is settled stays settled. -/
theorem settlementsOf_process_ne_nil (h : b.settlementsOf y ≠ [] ∨ y = x) (u t : String) :
    (b.process x u t).settlementsOf y ≠ [] := by
  by_cases hyx : y = x
  · rw [hyx, settlementsOf_process_self]
    split
    next => exact List.cons_ne_nil _ _
    next hne => exact hne
  · rw [settlementsOf_process_of_ne hyx]
    exact h.resolve_right hyx

/-- What is settled is what was, or what the request was for. -/
theorem mem_process {u t : String} {q : Settlement} (h : q ∈ (b.process x u t).settlements) :
    q ∈ b.settlements ∨ q = ⟨x, u, t⟩ := by
  by_cases hx : b.settlementsOf x = []
  · rw [process_of_eq_nil hx] at h
    exact (List.mem_append.mp h).imp_right List.mem_singleton.mp
  · rw [process_of_ne_nil hx] at h
    exact .inl h

/-- No escrow is settled twice. -/
theorem nodup_process (h : (b.settlements.map (·.escrow)).Nodup) (x u t : String) :
    ((b.process x u t).settlements.map (·.escrow)).Nodup := by
  by_cases hx : b.settlementsOf x = []
  · rw [process_of_eq_nil hx, List.map_append, List.nodup_append]
    refine ⟨h, by simp, fun i hi j hj hij => ?_⟩
    obtain ⟨q, hq, rfl⟩ := List.mem_map.mp hi
    have hqx : q.escrow = x := hij.trans (List.mem_singleton.mp hj)
    have hmem : q ∈ b.settlementsOf x := List.mem_filter.mpr ⟨hq, by simpa using hqx⟩
    rw [hx] at hmem
    cases hmem
  · rw [process_of_ne_nil hx]
    exact h

end Books

end Gateway

end Custody

import Custody.Proofs.Hearing
import Custody.Proofs.Question

/-!
# Asking the gateway again

A release that fails can be asked for again, by whoever may and through whichever operation pays out.
The request that moved the funds and the operation that completes the record need not belong together:
the gateway answers a repeated request with its first settlement, and so the record tells of that one.

> `Remote.settledIn_run`: the gateway settles on the first request for an escrow that it processes.
> `Remote.requests_eq`: an operation sends the request of its one question, and nothing else.
> `retries_settle_once`: however often a release was asked for, a completed record tells of the one
> settlement that there is, in favour of its seller.
-/

namespace Custody

open Gateway (Books Connection Passage Silence)

/-! ## Settlements of a run -/

/-- The transaction in which the gateway settles, if it processes a request that goes this way and has
not settled before. -/
def Gateway.Passage.fresh? : Passage → Option String
  | .answered t | .lost t _ => some t
  | .missed _ => none

namespace Remote

/-- During happenings from a service on, an operation sent the request on which the gateway made this
settlement, the first for the escrow. -/
def SettledIn (r : Remote) (hs : List RemoteHappening) (q : Settlement) : Prop :=
  ∃ pre by' op p post m, hs = pre ++ .operation by' op p :: post ∧
    (r.run pre).sent? ((r.run pre).outcome by' op p).asked = some m ∧
    q.escrow = m.escrow.text ∧ q.beneficiary = m.beneficiary ∧ p.fresh? = some q.transaction ∧
    (r.run pre).books.settlementsOf q.escrow = []

/-- What an operation adds to the books is the settlement that it asked for. -/
theorem mem_booksAfter {r : Remote} {p : Passage} {asked : Option SettleRequest} {q : Settlement}
    (hq : q ∈ (r.booksAfter p asked).settlements) :
    q ∈ r.books.settlements ∨ ∃ m, r.sent? asked = some m ∧ q.escrow = m.escrow.text ∧
      q.beneficiary = m.beneficiary ∧ p.fresh? = some q.transaction ∧
      r.books.settlementsOf q.escrow = [] := by
  unfold booksAfter at hq
  cases hs : r.sent? asked with
  | none =>
    rw [hs] at hq
    exact .inl hq
  | some m =>
    rw [hs] at hq
    -- A request that was processed settles, unless its escrow was settled before.
    have processed : ∀ t, p.fresh? = some t →
        q ∈ (r.books.process m.escrow.text m.beneficiary t).settlements →
        q ∈ r.books.settlements ∨ ∃ m', some m = some m' ∧ q.escrow = m'.escrow.text ∧
          q.beneficiary = m'.beneficiary ∧ p.fresh? = some q.transaction ∧
          r.books.settlementsOf q.escrow = [] := by
      intro t hfresh hq
      by_cases hnil : r.books.settlementsOf m.escrow.text = []
      · rw [Books.process_of_eq_nil hnil] at hq
        rcases List.mem_append.mp hq with hq | hq
        · exact .inl hq
        · obtain rfl := List.mem_singleton.mp hq
          exact .inr ⟨m, rfl, rfl, rfl, hfresh, hnil⟩
      · rw [Books.process_of_ne_nil hnil] at hq
        exact .inl hq
    cases p with
    | answered t => exact processed t rfl hq
    | lost t s => exact processed t rfl hq
    | missed s => exact .inl hq

/-- What the gateway has settled by the end of a run was settled before, or on the first request for the
escrow that the run led to it. -/
theorem settledIn_run (r : Remote) (hs : List RemoteHappening) :
    ∀ q ∈ (r.run hs).books.settlements, q ∈ r.books.settlements ∨ r.SettledIn hs q := by
  induction hs using List.reverseRec with
  | nil => exact fun q hq => .inl hq
  | append_singleton hs a ih =>
    intro q hq
    have hrun : r.run (hs ++ [a]) = (r.run hs).after a := List.foldl_concat ..
    rw [hrun] at hq
    have earlier : q ∈ (r.run hs).books.settlements →
        q ∈ r.books.settlements ∨ r.SettledIn (hs ++ [a]) q := by
      intro hq
      refine (ih q hq).imp_right ?_
      rintro ⟨pre, by', op, p, post, m, rfl, h⟩
      exact ⟨pre, by', op, p, post ++ [a], m, by simp, h⟩
    cases a with
    | operation by' op p =>
      rcases mem_booksAfter hq with hq | ⟨m, h⟩
      · exact earlier hq
      · exact .inr ⟨hs, by', op, p, [], m, rfl, h⟩
    | clock i => exact earlier hq
    | dispatcherBreaks reason => exact earlier hq
    | databaseBreaks reason => exact earlier hq
    | lease l => exact earlier hq

/-! ## Requests of an operation -/

/-- The requests that an operation sends to the gateway. -/
def requests (r : Remote) (by' : Caller) (op : Operation) (p : Passage) : List Gateway.Request :=
  (r.outcome by' op p).asked.toList.flatMap fun q =>
    (r.connection.settle (fun _ => r.books.seen q.escrow.text q.beneficiary p) q.escrow.text
      q.beneficiary).1

/-- The request for a settlement, where there is an address to send it to. -/
theorem requests_eq (r : Remote) (by' : Caller) (op : Operation) (p : Passage) :
    r.requests by' op p =
      ((r.outcome by' op p).asked.bind fun q =>
        (r.connection.settleRequest? q.escrow.text q.beneficiary).map (·.2)).toList := by
  unfold requests
  cases (r.outcome by' op p).asked with
  | none => rfl
  | some q =>
    simp only [Option.toList_some, List.flatMap_singleton, Option.bind_some, Connection.settle]
    cases r.connection.settleRequest? q.escrow.text q.beneficiary <;> rfl

/-- What an operation asks of the gateway does not depend on what becomes of its request. -/
theorem oneQuestion (r : Remote) (by' : Caller) (op : Operation) :
    ∃ question : Option SettleRequest, ∀ p, (r.outcome by' op p).asked = question ∧
      ∀ ask, (∀ q ∈ question, ask q = r.ask p q) →
        op.run { r.surroundings p with ask := ask } by' r.store r.store r.counters =
          r.outcome by' op p := by
  -- The passage is nowhere in the surroundings but in the answers.
  obtain ⟨question, h⟩ :=
    Operation.oneQuestion (r.surroundings (.answered "")) by' r.store r.counters op r.store
  exact ⟨question, fun p => ⟨h.asked (r.ask p), fun ask hask => h.heard ask (r.ask p) hask⟩⟩

end Remote

/-! ## Retries -/

/-- After every run of a service with a gateway, with any number of releases and confirmations and
whatever is lost on the way to the gateway and back. When an escrow is completed, the gateway has settled
it, on the first request for it that it processed; that is its one settlement, the one that every
further request would be answered with, in the transaction of the record and in favour of the seller.
And whatever is asked of the service next, it sends one request for a settlement at most, for an escrow
that is not completed and its seller; there is no other question that it would go by the answer to. -/
theorem retries_settle_once (clock : Int) (settings : Settings) (dispatcher : Dispatcher)
    (lease : Option Lease) (connection : Connection) (hs : List RemoteHappening) :
    let r₀ := Remote.start clock settings dispatcher lease connection
    let r := r₀.run hs
    (∀ e ∈ r.store.escrows, e.status = .completed → ∃ b t,
      ⟨b, .seller⟩ ∈ e.parties ∧ (∀ u, ⟨u, .seller⟩ ∈ e.parties → u = b) ∧
      e.releaseTransaction = some t ∧
      r.books.settlements.filter (fun q => q.escrow = e.id.text) = [⟨e.id.text, b, t⟩] ∧
      r₀.SettledIn hs ⟨e.id.text, b, t⟩ ∧
      ∀ u fresh, r.books.settlement e.id.text u fresh = ⟨e.id.text, b, t⟩) ∧
    ∀ by' op, ∃ question : Option SettleRequest,
      (∀ q ∈ question, ∃ e ∈ r.store.escrows, q.escrow = e.id ∧ e.status ≠ .completed ∧
        ⟨q.beneficiary, .seller⟩ ∈ e.parties) ∧
      ∀ p, (r.requests by' op p).length ≤ 1 ∧
        r.requests by' op p = (question.bind fun q =>
          (r.connection.settleRequest? q.escrow.text q.beneficiary).map (·.2)).toList ∧
        ∀ ask, (∀ q ∈ question, ask q = r.ask p q) →
          op.run { r.surroundings p with ask := ask } by' r.store r.store r.counters =
            r.outcome by' op p := by
  intro r₀ r
  obtain ⟨hk, hb⟩ := Remote.booked_run clock settings dispatcher lease connection hs
  constructor
  · intro e he hc
    have hsound := hk.sound e he
    obtain ⟨b, t, hseller, ht, hone⟩ := Escrow.settlements_of_completed hsound hc
    have hmem := Escrow.mem_parties_of_recipient? hseller
    have hsettled : r.books.settlementsOf e.id.text = [⟨e.id.text, b, t⟩] :=
      (hb.completed e he hc).trans hone
    refine ⟨b, t, hmem, fun u hu => hsound.seller_unique hu hmem, ht, hsettled, ?_, ?_⟩
    · have hq : (⟨e.id.text, b, t⟩ : Settlement) ∈ r.books.settlementsOf e.id.text := by
        rw [hsettled]
        exact List.mem_singleton_self _
      exact (r₀.settledIn_run hs _ (List.mem_filter.mp hq).1).resolve_left List.not_mem_nil
    · intro u fresh
      rw [Books.settlement, Books.settled?_eq_head?, hsettled]
      rfl
  · intro by' op
    obtain ⟨question, hquestion⟩ := r.oneQuestion by' op
    refine ⟨question, fun q hq => ?_, fun p => ?_⟩
    · have hasked : (r.outcome by' op (.answered "")).asked = some q := (hquestion _).1.trans hq
      obtain ⟨e, hdue⟩ := Operation.asked_run hasked
      exact ⟨e, List.mem_of_find?_eq_some hdue.stored, hdue.escrow, hdue.unpaid,
        Escrow.mem_parties_of_recipient? hdue.seller⟩
    · obtain ⟨hasked, hheard⟩ := hquestion p
      have hrequests := r.requests_eq by' op p
      rw [hasked] at hrequests
      exact ⟨hrequests ▸ Option.length_toList_le, hrequests, hheard⟩

/-- The sale is funded, and one confirmation made. The answer to the last confirmation is lost, the
request of a first release too; then the buyer releases once more. -/
def doubtfulReleases : List RemoteHappening :=
  let buyer : Caller := ⟨"buyer", none⟩
  let broken : Silence := .broken "ReadTimeout" "read timeout" true
  [.operation buyer (.create sale) (.missed broken),
    .operation buyer (.task (Identifier.escrow 1) (.activate (some "funds"))) (.missed broken),
    .operation ⟨"seller", none⟩ (.confirm (Identifier.condition 1)) (.missed broken),
    .operation ⟨"seller", none⟩ (.confirm (Identifier.condition 2)) (.lost "first" broken),
    .operation buyer (.task (Identifier.escrow 1) (.release true)) (.missed broken),
    .operation buyer (.task (Identifier.escrow 1) (.release true)) (.answered "second")]

/-- The service after that. -/
def doubtfulSale : Remote :=
  (Remote.start 0 Settings.usual .recorder none testConnection).run doubtfulReleases

/-- The record tells of the transaction in which the gateway has settled on the seller's confirmation,
the answer to which was lost. -/
theorem retries_settle_once_doubtfulSale :
    ∃ e ∈ doubtfulSale.store.escrows, e.status = .completed ∧
      e.releaseTransaction = some "first" ∧
      (Remote.start 0 Settings.usual .recorder none testConnection).SettledIn doubtfulReleases
        ⟨e.id.text, "seller", "first"⟩ := by
  obtain ⟨e, he, hc, ht, hparties⟩ : ∃ e ∈ doubtfulSale.store.escrows, e.status = .completed ∧
      e.releaseTransaction = some "first" ∧ ⟨"seller", .seller⟩ ∈ e.parties := by
    decide +kernel
  obtain ⟨hcompleted, -⟩ :=
    retries_settle_once 0 Settings.usual .recorder none testConnection doubtfulReleases
  obtain ⟨b, t, -, hunique, ht', -, hsettled, -⟩ := hcompleted e he hc
  obtain rfl : t = "first" := Option.some.inj (ht'.symm.trans ht)
  obtain rfl : "seller" = b := hunique "seller" hparties
  exact ⟨e, he, hc, ht, hsettled⟩

end Custody

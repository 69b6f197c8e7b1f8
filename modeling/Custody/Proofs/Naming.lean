import Custody.Proofs.Attempt
import Custody.Proofs.Destination
import Custody.Proofs.Hearing

/-!
# Where a transaction comes from

A record is completed in the transaction that the gateway named for it: the value under `tx_hash` in an
answer of success, told as messages tell values. A text is taken as it stands; but so is any other value
by its spelling, and an answer with null there completes the record in a transaction `None`. A broken text
is taken too, and then it cannot be written down.

> `settleOutcome_cases`: what the client makes of a reply.
> `Connection.settles`: what it sends for an identifier, and what comes of it.
> `addressable_text_iff`: which escrows it sends a request for.
> `Connection.outcome_ok_iff`: a payment goes through exactly where the transaction is a sound text.
> `Operation.Comes.transaction`: the ledger has named each transaction that an operation writes down.
> `Remote.outcome_eq_attempt`: a service with a gateway exchanges as described here.
> `transaction_named`: so the gateway has named each transaction of the records.
-/

namespace Custody

open Gateway (Connection)

namespace Gateway

/-! ## Replies -/

namespace Reply

/-- An answer of success with this value as the transaction. -/
def Names (r : Reply) (v : Json) : Prop :=
  ∃ status body spare members, r = .response status body spare ∧ isSuccess status = true ∧
    Json.ofDocument spare body = .ok (.object members) ∧ Json.lookup "tx_hash" members = some v

/-- An answer of success that is nested too deep for the room that is left to read it. -/
def TooDeep (r : Reply) (inObject : Bool) : Prop :=
  ∃ status body spare, r = .response status body spare ∧ isSuccess status = true ∧
    Json.ofDocument spare body = .error (.tooDeep inObject)

end Reply

/-- What names a transaction is an answer of success with an object that has one. -/
theorem names_response_iff {status : Int} {body : List UInt8} {spare : Nat} {v : Json} :
    (Reply.response status body spare).Names v ↔ isSuccess status = true ∧
      (Json.ofDocument spare body).toOption.bind (Json.get? "tx_hash") = some v := by
  constructor
  · rintro ⟨_, _, _, members, heq, hs, hbody, hv⟩
    cases heq
    exact ⟨hs, by rw [hbody]; exact hv⟩
  · rintro ⟨hs, hv⟩
    obtain ⟨d, hd, hv⟩ := Option.bind_eq_some_iff.mp hv
    cases hbody : Json.ofDocument spare body with
    | error e =>
      rw [hbody] at hd
      cases hd
    | ok d' =>
      rw [hbody] at hd
      cases hd
      cases d with
      | object members => exact ⟨_, _, _, members, rfl, hs, hbody, hv⟩
      | _ => cases hv

/-- From an address that tells its kind, the client takes the transaction that a reply names, and fails
where it names none. -/
theorem settleOutcome_cases {a : Address} (ha : a.tellsKind = true) (r : Reply) :
    (∃ v, r.Names v ∧ settleOutcome a r = .ok v.spelled) ∨
      (∃ d, r.TooDeep d ∧ settleOutcome a r = .error (.tooDeep d)) ∨
      ((∀ v, ¬r.Names v) ∧
        ∃ m, settleOutcome a r = .error (.escrow (.ledger (.settlement m none)))) := by
  cases r with
  | broken name message transport =>
    exact .inr (.inr ⟨fun v ⟨_, _, _, _, h, _⟩ => (nomatch h), _, rfl⟩)
  | response status body spare =>
    simp only [names_response_iff, settleOutcome, ha, Bool.not_true, Bool.false_eq_true, if_false]
    cases hs : isSuccess status with
    | false => exact .inr (.inr ⟨fun v h => Bool.false_ne_true h.1, _, rfl⟩)
    | true =>
      simp only [Bool.not_true, Bool.false_eq_true, if_false, true_and]
      split
      next d hd => exact .inr (.inl ⟨d, ⟨_, _, _, rfl, hs, hd⟩, rfl⟩)
      next =>
        cases hv : (Json.ofDocument spare body).toOption.bind (Json.get? "tx_hash") with
        | some v => exact .inl ⟨v, rfl, rfl⟩
        | none => exact .inr (.inr ⟨fun v h => Option.some_ne_none v h.symm, _, rfl⟩)

/-! ## Requests -/

/-- An identifier that a request can carry. -/
def Addressable (id : String) : Prop :=
  id.toList.length + 16 ≤ Address.lengthMost ∧ ∀ c ∈ id.toList, Address.isAllowed c = true

theorem isAllowed_of_mem_digits {i : Identifier} {c : Char} (h : c ∈ i.digits) :
    Address.isAllowed c = true := by
  have hdigit : ∀ d < 16, Address.isAllowed (Text.hexChar d) = true := by decide
  unfold Identifier.digits at h
  generalize max 32 (i.value.log2 / 4 + 1) = width at h
  generalize i.value = n at h
  induction width generalizing n with
  | zero => cases h
  | succ width ih =>
    rcases List.mem_append.mp h with h | h
    · exact ih _ h
    · rw [List.mem_singleton.mp h]
      exact hdigit _ (Nat.mod_lt n (by decide))

/-- Every identifier of an escrow is one, unless it has more digits than fit. -/
theorem addressable_text_iff (i : Identifier) :
    Addressable i.text ↔ i.digits.length + 20 ≤ Address.lengthMost := by
  have hlength : i.text.toList.length = i.digits.length + 4 := by
    have := i.le_length_digits
    simp only [Identifier.toList_text, List.length_append, List.length_cons, List.length_take,
      List.length_drop]
    omega
  have hallowed : ∀ c ∈ i.text.toList, Address.isAllowed c = true := by
    intro c hc
    -- What stands between the hyphens are digits.
    have digits : ∀ {from' n : Nat}, c ∈ (i.digits.drop from').take n →
        Address.isAllowed c = true :=
      fun h => isAllowed_of_mem_digits (List.mem_of_mem_drop (List.mem_of_mem_take h))
    simp only [Identifier.toList_text, List.mem_append, List.mem_cons] at hc
    rcases hc with h | rfl | h | rfl | h | rfl | h | rfl | h
    · exact isAllowed_of_mem_digits (List.mem_of_mem_take h)
    · decide
    · exact digits h
    · decide
    · exact digits h
    · decide
    · exact digits h
    · decide
    · exact isAllowed_of_mem_digits (List.mem_of_mem_drop h)
  rw [Addressable, hlength]
  exact and_iff_left hallowed

namespace Connection

/-- The request for a settlement. -/
structure Sends (c : Connection) (id beneficiary : String) (m : Request) : Prop where
  addressable : Addressable id
  method : m.method = "POST"
  authorization : m.authorization = c.authorization
  body : m.body = (Json.object [("beneficiary", .text beneficiary)]).toText

/-- What a settlement can come to that gets a reply: the requests that were sent, and the result. -/
inductive Settles (c : Connection) (id beneficiary : String) (r : Reply) :
    List Request × Except Failure LooseText → Prop
  | unsent (h : ¬Addressable id ∨ c.base.scheme = []) :
      Settles c id beneficiary r ([], .error .badAddress)
  | named {m : Request} {v : Json} (hm : c.Sends id beneficiary m) (h : r.Names v) :
      Settles c id beneficiary r ([m], .ok v.spelled)
  | unnamed {m : Request} {message : String} (hm : c.Sends id beneficiary m) (h : ∀ v, ¬r.Names v) :
      Settles c id beneficiary r ([m], .error (.escrow (.ledger (.settlement message none))))
  | tooDeep {m : Request} {inObject : Bool} (hm : c.Sends id beneficiary m) (h : r.TooDeep inObject) :
      Settles c id beneficiary r ([m], .error (.tooDeep inObject))
  | unsupported {m : Request} {address : String} (hm : c.Sends id beneficiary m)
      (h : c.base.scheme = []) : Settles c id beneficiary r ([m], .error (.value (.address address)))

theorem base_usable {config : Config} {c : Connection} (hc : config.connect = .ok c)
    (hs : c.base.scheme ≠ []) : c.base.Usable := by
  unfold Config.connect at hc
  split at hc
  next => cases hc
  next base hbase =>
    dsimp only at hc
    split at hc
    next => cases hc
    next =>
      cases hc
      obtain ⟨a, ha, hopened⟩ := Option.bind_eq_some_iff.mp hbase
      exact Address.usable_opened? (Address.usable_ofText? ha) hopened hs

/-- The target of a settlement begins with one slash. -/
theorem toList_settleTarget (id : String) :
    ∃ rest, ("/escrows/" ++ id ++ "/settle").toList = '/' :: 'e' :: rest :=
  ⟨_, by rw [String.toList_append, String.toList_append]; rfl⟩

/-- An address can have that target exactly when a request can carry the identifier. -/
theorem addressable_iff (id : String) :
    Addressable id ↔ ("/escrows/" ++ id ++ "/settle").toList.length ≤ Address.lengthMost ∧
      ∀ c ∈ ("/escrows/" ++ id ++ "/settle").toList, Address.isAllowed c = true := by
  have hfront : ∀ c ∈ "/escrows/".toList, Address.isAllowed c = true :=
    List.all_eq_true.mp (by decide)
  have hback : ∀ c ∈ "/settle".toList, Address.isAllowed c = true := List.all_eq_true.mp (by decide)
  have hlength : ("/escrows/" ++ id ++ "/settle").toList.length = id.toList.length + 16 := by
    simp only [String.toList_append, List.length_append]
    show 9 + id.toList.length + 7 = _
    omega
  rw [hlength, Addressable, String.toList_append, String.toList_append]
  simp only [List.mem_append, or_imp, forall_and]
  exact ⟨fun ⟨hl, h⟩ => ⟨hl, ⟨hfront, h⟩, hback⟩, fun ⟨hl, ⟨_, h⟩, _⟩ => ⟨hl, h⟩⟩

/-- Through a connection that was set up, every settlement comes to one of these. -/
theorem settles {config : Config} {c : Connection} (hc : config.connect = .ok c)
    (script : Nat → Reply) (id beneficiary : String) :
    c.Settles id beneficiary (script 0) (c.settle script id beneficiary) := by
  obtain ⟨rest, htext⟩ := toList_settleTarget id
  unfold Connection.settle settleRequest? request?
  cases ha : c.base.below? ("/escrows/" ++ id ++ "/settle") with
  | none =>
    refine .unsent ?_
    by_contra h
    obtain ⟨haddressable, hs⟩ := not_or.mp h
    have hsome := (Address.isSome_below?_iff (base_usable hc hs) htext (by decide)).mpr
      ((addressable_iff id).mp (not_not.mp haddressable))
    rw [ha] at hsome
    cases hsome
  | some a =>
    have hm : c.Sends id beneficiary ⟨"POST", String.ofList a.target, c.authorization,
        (Json.object [("beneficiary", .text beneficiary)]).toText⟩ := by
      obtain ⟨b, hb, -⟩ := Option.bind_eq_some_iff.mp ha
      have hsome := (Address.isSome_ofText?_iff htext (by decide)).mp (by rw [hb]; rfl)
      exact ⟨(addressable_iff id).mpr hsome, rfl, rfl, rfl⟩
    show c.Settles id beneficiary (script 0) ([_], settleOutcome a (script 0))
    -- Only an address below a base without a scheme does not tell its kind.
    by_cases hkind : a.tellsKind = true
    · rcases settleOutcome_cases hkind (script 0) with ⟨v, hv, h⟩ | ⟨d, hd, h⟩ | ⟨hnone, m, h⟩
      · rw [h]
        exact .named hm hv
      · rw [h]
        exact .tooDeep hm hd
      · rw [h]
        exact .unnamed hm hnone
    · have hs : c.base.scheme = [] := by
        by_contra hs
        exact hkind (Address.tellsKind_below? (base_usable hc hs) (by rw [htext]; rfl) ha)
      cases script 0 with
      | broken name message transport => exact .unnamed hm fun v ⟨_, _, _, _, h, _⟩ => nomatch h
      | response status body spare =>
        rw [settleOutcome, if_pos (by simpa using hkind)]
        exact .unsupported hm hs

end Connection

end Gateway

/-! ## Records -/

/-- The record of a sound escrow names a transaction exactly when it tells of a settlement in it. -/
theorem Escrow.releaseTransaction_eq_some_iff {e : Escrow} (he : e.Sound) {t : String} :
    e.releaseTransaction = some t ↔ ∃ b, ⟨e.id.text, b, t⟩ ∈ e.settlements := by
  by_cases hc : e.status = .completed
  · obtain ⟨b, t', -, ht, hone⟩ := settlements_of_completed he hc
    simp [ht, hone, eq_comm]
  · have hnone : e.releaseTransaction = none := by
      rw [← Option.not_isSome_iff_eq_none, he.settled_iff]
      exact hc
    simp [hnone, settlements_of_ne_completed he hc]

/-- The transaction of a record was there before an operation, or the ledger has named it to the
request of the operation. -/
theorem Operation.Comes.transaction {env : Surroundings} {by' : Caller} {op : Operation}
    {seen s : Store} {c : Counters} {o : Outcome Answer} (h : op.Comes env by' seen s c o)
    (hk : Kept s c) {e : Escrow} (he : e ∈ o.store.escrows) {t : String}
    (ht : e.releaseTransaction = some t) :
    (∃ d ∈ s.escrows, d.id = e.id ∧ d.releaseTransaction = some t) ∨
      ∃ b, o.asked = some ⟨e.id, b⟩ ∧ (env.ask ⟨e.id, b⟩).result = .ok t := by
  cases h with
  | failed h =>
    rw [h.store] at he
    exact .inl ⟨e, he, rfl, ht⟩
  | idle => exact .inl ⟨e, he, rfl, ht⟩
  | created _ _ _ hrecord =>
    rcases List.mem_append.mp he with he | he
    · exact .inl ⟨e, he, rfl, ht⟩
    · obtain rfl := List.mem_singleton.mp he
      rw [hrecord] at ht
      cases ht
  | @done o d w paid _ h answer =>
    have he : e ∈ o.store.escrows := he
    rw [h.store, Store.escrows_enterAll] at he
    -- Only the record of the deed is changed; a settlement that it did not have is the one paid for.
    rcases hk.mem_changed h.stored he with rfl | ⟨he, -⟩
    · have hsound : d.Sound := hk.sound d (List.mem_of_find?_eq_some h.stored)
      obtain ⟨b, hb⟩ := (Escrow.releaseTransaction_eq_some_iff
        (h.deed.view_sound hsound env.now)).mp ht
      rw [h.deed.settlements hsound, Writes.view_id] at hb
      rcases List.mem_append.mp hb with hb | hb
      · exact .inl ⟨d, List.mem_of_find?_eq_some h.stored, (Writes.view_id ..).symm,
          (Escrow.releaseTransaction_eq_some_iff hsound).mpr ⟨b, hb⟩⟩
      · obtain ⟨⟨⟨x, b'⟩, t'⟩, rfl, hq⟩ : ∃ q, paid = some q ∧
            SettleRequest.settled q = ⟨d.id.text, b, t⟩ := by
          simpa using hb
        obtain ⟨rfl, -⟩ : x = d.id ∧ _ := h.deed.paid_spec
        injection hq with _ hb ht
        subst hb ht
        right
        rw [Writes.view_id]
        exact ⟨b', h.asked, h.answered _ rfl⟩
    · exact .inl ⟨e, he, rfl, ht⟩

/-! ## Exchanges -/

/-- An operation of somebody with all that surrounds it, behind a gateway that answers a request for a
settlement as it likes. -/
structure Exchange where
  env : Surroundings
  caller : Caller
  op : Operation
  reply : SettleRequest → Gateway.Reply

namespace Gateway.Connection

/-- An exchange through a connection. -/
def attempt (c : Connection) (y : Exchange) : Attempt :=
  ⟨{ y.env with ask := c.answer y.reply }, y.caller, y.op⟩

theorem ask_attempt (c : Connection) (y : Exchange) : (c.attempt y).env.ask = c.answer y.reply := rfl

/-- The records after exchanges through a connection. -/
def records (c : Connection) (ys : List Exchange) : Records := Records.start.run (ys.map c.attempt)

/-- One of some exchanges asked for the settlement of an escrow, its request was sent, and the gateway
replied with a value that is spelled like this. -/
def NamedIn (c : Connection) (ys : List Exchange) (x : Identifier) (t : String) : Prop :=
  ∃ before y after beneficiary m v, ys = before ++ y :: after ∧
    ((c.records before).outcome (c.attempt y)).asked = some ⟨x, beneficiary⟩ ∧
    (c.settle (fun _ => y.reply ⟨x, beneficiary⟩) x.text beneficiary).1 = [m] ∧
    (y.reply ⟨x, beneficiary⟩).Names v ∧ v.spelled = .sound t

/-- What is named stays named. -/
theorem NamedIn.concat {c : Connection} {ys : List Exchange} {x : Identifier} {t : String}
    (h : c.NamedIn ys x t) (y : Exchange) : c.NamedIn (ys ++ [y]) x t := by
  obtain ⟨before, y', after, b, m, v, rfl, h⟩ := h
  exact ⟨before, y', after ++ [y], b, m, v, by simp, h⟩

/-- An exchange that was told of a transaction has it named. -/
theorem namedIn_concat {config : Config} {c : Connection} (hc : config.connect = .ok c)
    {ys : List Exchange} {y : Exchange} {x : Identifier} {b t : String}
    (hasked : ((c.records ys).outcome (c.attempt y)).asked = some ⟨x, b⟩)
    (ht : (c.answer y.reply ⟨x, b⟩).result = .ok t) : c.NamedIn (ys ++ [y]) x t := by
  have hsettles := settles hc (fun _ => y.reply ⟨x, b⟩) x.text b
  have ht : (c.settle (fun _ => y.reply ⟨x, b⟩) x.text b).2 = .ok (.sound t) := by
    obtain ⟨t', ht', hwritten⟩ := Except.bind_eq_ok_iff.mp ht
    rw [ht', LooseText.written_eq_ok_iff.mp hwritten]
  refine ⟨ys, y, [], b, ?_⟩
  generalize c.settle (fun _ => y.reply ⟨x, b⟩) x.text b = s at hsettles ht ⊢
  cases hsettles with
  | named _ hv => exact ⟨_, _, rfl, hasked, rfl, hv, Except.ok.inj ht⟩
  | _ => cases ht

theorem records_concat (c : Connection) (ys : List Exchange) (y : Exchange) :
    c.records (ys ++ [y]) = (c.records ys).after (c.attempt y) := by
  rw [records, List.map_append]
  exact Records.run_concat ..

/-- Each transaction of the records has been named. -/
theorem namedIn_records {config : Config} {c : Connection} (hc : config.connect = .ok c)
    (ys : List Exchange) : ∀ e ∈ (c.records ys).store.escrows, ∀ t, e.releaseTransaction = some t →
      c.NamedIn ys e.id t := by
  induction ys using List.reverseRec with
  | nil => exact fun e he => nomatch he
  | append_singleton ys y ih =>
    intro e he t ht
    have hk : Kept (c.records ys).store (c.records ys).counters := Records.kept_run _
    rw [records_concat] at he
    have hcomes := y.op.run_comes (c.attempt y).env hk.sound y.caller (c.records ys).store
      (c.records ys).counters
    rcases hcomes.transaction hk he ht with ⟨d, hd, hid, hdt⟩ | ⟨b, hasked, hresult⟩
    · rw [← hid]
      exact (ih d hd t hdt).concat y
    · rw [ask_attempt] at hresult
      exact namedIn_concat hc hasked hresult

/-- An exchange that asks for a settlement goes through exactly when the client takes a sound text from
the reply. -/
theorem outcome_ok_iff {c : Connection} {ys : List Exchange} {y : Exchange} {q : SettleRequest}
    (hasked : ((c.records ys).outcome (c.attempt y)).asked = some q) :
    (∃ a, ((c.records ys).outcome (c.attempt y)).result = .ok a) ↔
      ∃ t, (c.settle (fun _ => y.reply q) q.escrow.text q.beneficiary).2 = .ok (.sound t) := by
  have hk : Kept (c.records ys).store (c.records ys).counters := Records.kept_run _
  have hcomes := y.op.run_comes (c.attempt y).env hk.sound y.caller (c.records ys).store
    (c.records ys).counters
  refine (hcomes.ok_iff hasked).trans (exists_congr fun t => ?_)
  show (c.settle _ _ _).2 >>= LooseText.written = .ok t ↔ _
  simp [Except.bind_eq_ok_iff, LooseText.written_eq_ok_iff]

end Gateway.Connection

/-- The client takes half of a pair for a transaction, and nothing can be written down in it. -/
example : let reply : Gateway.Reply := .response 200 (Utf8.encode "\x7b\"tx_hash\":\"\\ud800\"\x7d") 0
    (testConnection.settle (fun _ => reply) "e-1" "seller-1").2.toOption =
        some (.broken ⟨[.half 0], rfl⟩) ∧
      (testConnection.answer (fun _ => reply) ⟨Identifier.escrow 1, "seller-1"⟩).result.toOption =
        none := by
  decide +kernel

/-- An operation of a service with a gateway is such an exchange. -/
theorem Remote.outcome_eq_attempt (r : Remote) (by' : Caller) (op : Operation)
    (p : Gateway.Passage) :
    r.outcome by' op p = (⟨r.store, r.counters⟩ : Records).outcome (r.connection.attempt
      ⟨r.surroundings p, by', op, fun q => r.books.seen q.escrow.text q.beneficiary p⟩) := rfl

/-- For every identifier, beneficiary and reply, the client sends one request, unless it cannot be sent.
It has a transaction exactly from an answer of success with a value under `tx_hash`: a text as it is,
another value by its spelling. What names none is a failed settlement, but for an answer that is nested
too deep for the room that is left to read it. An operation that asks for a settlement goes through
exactly when the text so found is sound, and leaves the records alone otherwise. So after any operations,
and whatever the gateway has replied to each, the transaction of a record is one that the gateway has
named in its reply to a request for that escrow. -/
theorem transaction_named {config : Gateway.Config} {c : Connection} (hc : config.connect = .ok c) :
    (∀ script id beneficiary,
      c.Settles id beneficiary (script 0) (c.settle script id beneficiary)) ∧
    (∀ ys y q, ((c.records ys).outcome (c.attempt y)).asked = some q →
      ((∃ a, ((c.records ys).outcome (c.attempt y)).result = .ok a) ↔
        ∃ t, (c.settle (fun _ => y.reply q) q.escrow.text q.beneficiary).2 = .ok (.sound t)) ∧
      ∀ f, ((c.records ys).outcome (c.attempt y)).result = .error f →
        (c.records (ys ++ [y])).store = (c.records ys).store) ∧
    ∀ ys, ∀ e ∈ (c.records ys).store.escrows, ∀ t, e.releaseTransaction = some t →
      c.NamedIn ys e.id t := by
  refine ⟨fun script id b => Connection.settles hc script id b, fun ys y q hasked =>
    ⟨Connection.outcome_ok_iff hasked, fun f hf => ?_⟩, Connection.namedIn_records hc⟩
  rw [Connection.records_concat]
  exact Operation.run_store_of_error hf

/-- The configuration of a gateway. -/
def testConfig : Gateway.Config := ⟨"http://ledger.test", "", 3⟩

/-- An answer of success with null as the transaction. -/
def nullReply : Gateway.Reply := .response 200 (Utf8.encode "\x7b\"tx_hash\":null\x7d") 0

/-- The sale is funded and released by its buyer, and each request gets that answer. -/
def nullSale : List Exchange :=
  let exchange (op : Operation) : Exchange :=
    ⟨(Service.start 0 Settings.usual .recorder none).surroundings, ⟨"buyer", none⟩, op,
      fun _ => nullReply⟩
  [exchange (.create sale), exchange (.task (Identifier.escrow 1) (.activate (some "funds"))),
    exchange (.task (Identifier.escrow 1) (.release true))]

/-- The client takes null for a transaction, and the sale is completed in it. -/
theorem transaction_named_nullSale :
    (∃ m v, testConnection.settle (fun _ => nullReply) "e-1" "seller-1" = ([m], .ok v.spelled) ∧
      nullReply.Names v ∧ v.spelled = .sound "None") ∧
    ∃ e ∈ (testConnection.records nullSale).store.escrows, e.releaseTransaction = some "None" ∧
      testConnection.NamedIn nullSale e.id "None" := by
  have hc : testConfig.connect = .ok testConnection := by decide +kernel
  obtain ⟨hsettles, -, hnamed⟩ := transaction_named hc
  constructor
  · have htaken : (testConnection.settle (fun _ => nullReply) "e-1" "seller-1").2.toOption =
        some (.sound "None") := by decide +kernel
    have hsettles := hsettles (fun _ => nullReply) "e-1" "seller-1"
    generalize testConnection.settle (fun _ => nullReply) "e-1" "seller-1" = s
      at htaken hsettles ⊢
    cases hsettles with
    | named _ hv => exact ⟨_, _, rfl, hv, Option.some.inj htaken⟩
    | _ => cases htaken
  · obtain ⟨e, he, ht⟩ : ∃ e ∈ (testConnection.records nullSale).store.escrows,
        e.releaseTransaction = some "None" := by
      decide +kernel
    exact ⟨e, he, ht, hnamed nullSale e he _ ht⟩

end Custody

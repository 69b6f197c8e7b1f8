import Custody.Proofs.Demand
import Custody.Proofs.Chronicle
import Custody.Proofs.Settlement
import Custody.Proofs.Spelling
import Custody.Service.Remote

/-!
# Answers that go unheard

A failed settlement leaves the records as they were, whether or not the gateway has settled. So the
two agree on every escrow that is completed, and on the others they agree exactly as long as every
answer was heard: an escrow can be cancelled after its funds have moved, but only when the answer
that told of it was lost.

> `Remote.heard`: an answer that is heard names the transaction in which the escrow is settled.
> `Remote.unheard_iff_lost`: what goes unheard is an answer that was lost, or cannot be taken.
> `Remote.booked_perform`: an operation keeps books and records in step, but for what goes unheard.
> `settled_iff_unheard`: an escrow that is not completed has been settled exactly when an answer about
> it went unheard.
-/

namespace Custody

open Gateway (Books Connection Passage Silence)

/-! ## Hearing from the gateway -/

namespace Gateway.Books

variable {b : Books} {x u : String}

/-- An escrow that is settled once has no other settlement. -/
theorem settlementsOf_eq_singleton (h : (b.settlements.map (·.escrow)).Nodup) {q : Settlement}
    (hq : q ∈ b.settlementsOf x) : b.settlementsOf x = [q] := by
  have hx : ∀ a ∈ b.settlementsOf x, a.escrow = x := fun a ha => by
    simpa using (List.mem_filter.mp ha).2
  have hnodup : ((b.settlementsOf x).map (·.escrow)).Nodup :=
    h.sublist (List.filter_sublist.map _)
  generalize b.settlementsOf x = l at hq hx hnodup
  match l with
  | [a] => rw [List.mem_singleton.mp hq]
  | a :: a' :: l =>
    -- Two of them would have the same escrow.
    have heq : a.escrow = a'.escrow := (hx a (by simp)).trans (hx a' (by simp)).symm
    simp [heq] at hnodup

/-- After a request the escrow has one settlement, in the transaction that the answer names. -/
theorem settlementsOf_process (h : (b.settlements.map (·.escrow)).Nodup)
    (hu : ∀ q ∈ b.settlementsOf x, q.beneficiary = u) (t : String) :
    (b.process x u t).settlementsOf x = [⟨x, u, (b.settlement x u t).transaction⟩] := by
  rw [settlementsOf_process_self, settlement, settled?_eq_head?]
  split
  next hnil => rw [hnil]; rfl
  next hne =>
    obtain ⟨q, hq⟩ := List.exists_mem_of_ne_nil _ hne
    have hone := settlementsOf_eq_singleton h hq
    have hx : q.escrow = x := by simpa using (List.mem_filter.mp hq).2
    rw [hone, ← hu q hq, ← hx]
    rfl

end Gateway.Books

namespace Remote

variable {r : Remote} {p : Passage} {asked : Option SettleRequest}

theorem eq_of_sent? {q : SettleRequest} (h : r.sent? asked = some q) : asked = some q :=
  (Option.filter_eq_some_iff.mp h).1

/-- Books that an operation leaves are those that it found, or have the one request in them that it
sent and that arrived. -/
theorem booksAfter_cases (r : Remote) (p : Passage) (asked : Option SettleRequest) :
    (r.booksAfter p asked = r.books ∧ ¬((r.sent? asked).isSome ∧ p.arrives = true)) ∨
      ∃ q t, r.sent? asked = some q ∧ p.arrives = true ∧
        r.booksAfter p asked = r.books.process q.escrow.text q.beneficiary t := by
  unfold booksAfter
  cases hs : r.sent? asked with
  | none => exact .inl ⟨rfl, by simp⟩
  | some q =>
    cases p with
    | answered t => exact .inr ⟨q, t, rfl, rfl, rfl⟩
    | lost t s => exact .inr ⟨q, t, rfl, rfl, rfl⟩
    | missed s => exact .inl ⟨rfl, by simp [Passage.arrives]⟩

/-- An operation has a transaction that it can write down just if the client makes one of what it has
seen. -/
theorem result_ask_eq_ok_iff {q : SettleRequest} {t : String} :
    (r.ask p q).result = .ok t ↔
      ∃ a m, r.connection.settleRequest? q.escrow.text q.beneficiary = some (a, m) ∧
        Gateway.settleOutcome a (r.books.seen q.escrow.text q.beneficiary p) = .ok (.sound t) := by
  show (r.connection.settle _ _ _).2 >>= LooseText.written = .ok t ↔ _
  unfold Connection.settle
  cases r.connection.settleRequest? q.escrow.text q.beneficiary with
  | none => exact iff_of_false nofun nofun
  | some am =>
    obtain ⟨a, m⟩ := am
    simp [Except.bind_eq_ok_iff, LooseText.written_eq_ok_iff]

/-- The client makes such a transaction of an answer that arrives, and of nothing else. -/
theorem settleOutcome_seen_iff {b : Books} {a : Address} {x u t : String} :
    Gateway.settleOutcome a (b.seen x u p) = .ok (.sound t) ↔
      a.tellsKind = true ∧ ∃ fresh, p = .answered fresh ∧
        t = (b.settlement x u fresh).transaction := by
  cases p with
  | answered fresh =>
    rw [Books.seen, Gateway.settleOutcome_settleAnswer]
    simp only [Passage.answered.injEq, exists_eq_left', LooseText.sound.injEq]
  | lost fresh s => exact ⟨fun h => absurd h (s.unnamed a t), fun ⟨_, _, h, _⟩ => nomatch h⟩
  | missed s => exact ⟨fun h => absurd h (s.unnamed a t), fun ⟨_, _, h, _⟩ => nomatch h⟩

/-- What is heard is an answer that arrived, and it names the transaction in which the escrow is
settled. -/
theorem heard {q : SettleRequest} {t : String} (h : (r.ask p q).result = .ok t) :
    ∃ fresh, r.booksAfter p (some q) = r.books.process q.escrow.text q.beneficiary fresh ∧
      t = (r.books.settlement q.escrow.text q.beneficiary fresh).transaction := by
  obtain ⟨a, m, hrequest, h⟩ := result_ask_eq_ok_iff.mp h
  obtain ⟨-, fresh, rfl, ht⟩ := settleOutcome_seen_iff.mp h
  have hsent : r.sent? (some q) = some q := by simp [sent?, hrequest]
  refine ⟨fresh, ?_, ht⟩
  rw [booksAfter, hsent]
  rfl

/-- An answer is heard exactly when it arrives and its address can be used. -/
theorem ask_eq_ok_iff {q : SettleRequest} {a : Address} {m : Gateway.Request}
    (hq : r.connection.settleRequest? q.escrow.text q.beneficiary = some (a, m)) :
    (∃ t, (r.ask p q).result = .ok t) ↔ (∃ fresh, p = .answered fresh) ∧ a.tellsKind = true := by
  constructor
  · rintro ⟨t, h⟩
    obtain ⟨a', m', hq', h⟩ := result_ask_eq_ok_iff.mp h
    cases hq.symm.trans hq'
    obtain ⟨ha, fresh, hp, -⟩ := settleOutcome_seen_iff.mp h
    exact ⟨⟨fresh, hp⟩, ha⟩
  · rintro ⟨⟨fresh, hp⟩, ha⟩
    exact ⟨_, result_ask_eq_ok_iff.mpr ⟨a, m, hq, settleOutcome_seen_iff.mpr ⟨ha, fresh, hp, rfl⟩⟩⟩

end Remote

/-! ## Books and records -/

/-- A request leaves what is settled for other escrows alone. -/
theorem settlementsOf_process_of_ne {b : Books} {x y : Identifier} (h : y ≠ x) (u t : String) :
    (b.process x.text u t).settlementsOf y.text = b.settlementsOf y.text :=
  Gateway.Books.settlementsOf_process_of_ne (fun htext => h (Identifier.text_injective htext)) u t

/-- Only a completed record tells of a settlement. -/
theorem Escrow.settlements_eq_nil_iff {e : Escrow} (he : e.Sound) :
    e.settlements = [] ↔ e.status ≠ .completed := by
  refine ⟨fun h hc => ?_, settlements_of_ne_completed he⟩
  obtain ⟨b, t, -, -, hone⟩ := settlements_of_completed he hc
  rw [hone] at h
  cases h

/-- Books and records in step: the gateway has settled what the completed records tell, and of the
others those of which an answer went unheard. -/
structure Booked (s : Store) (b : Books) (unheard : Identifier → Prop) : Prop where
  distinct : (b.settlements.map (·.escrow)).Nodup
  stored : ∀ q ∈ b.settlements,
    ∃ e ∈ s.escrows, e.id.text = q.escrow ∧ e.recipient? = some q.beneficiary
  completed : ∀ e ∈ s.escrows, e.status = .completed → b.settlementsOf e.id.text = e.settlements
  settled : ∀ e ∈ s.escrows, e.status ≠ .completed → b.settlementsOf e.id.text ≠ [] → unheard e.id
  moved : ∀ x, unheard x → b.settlementsOf x.text ≠ []

namespace Booked

variable {s : Store} {c : Counters} {b : Books} {unheard : Identifier → Prop}

/-- Only the records matter, and which escrows went unheard. -/
theorem congr {t : Store} {unheard' : Identifier → Prop} (h : Booked s b unheard)
    (he : t.escrows = s.escrows) (hu : ∀ x, unheard' x ↔ unheard x) : Booked t b unheard' := by
  refine ⟨h.distinct, ?_, ?_, ?_, fun x hx => h.moved x ((hu x).mp hx)⟩
  · rw [he]
    exact h.stored
  · rw [he]
    exact h.completed
  · rw [he]
    exact fun e hm hne hs => (hu e.id).mpr (h.settled e hm hne hs)

/-- Whoever is paid for an escrow is its seller. -/
theorem beneficiary (hk : Kept s c) (h : Booked s b unheard) {e : Escrow} (he : e ∈ s.escrows)
    {q : Settlement} (hq : q ∈ b.settlementsOf e.id.text) : e.recipient? = some q.beneficiary := by
  obtain ⟨hmem, hid⟩ := List.mem_filter.mp hq
  obtain ⟨d, hd, hdq, hseller⟩ := h.stored q hmem
  have hde : d.id = e.id := Identifier.text_injective (hdq.trans (of_decide_eq_true hid))
  obtain rfl : d = e := List.inj_on_of_nodup_map hk.distinct hd he hde
  exact hseller

/-- A request that was processed without being heard settles an escrow that is not completed, and the
records do not tell. -/
theorem process (hk : Kept s c) (h : Booked s b unheard) {q : SettleRequest} {e : Escrow}
    (hq : q.Due s e) (t : String) :
    Booked s (b.process q.escrow.text q.beneficiary t) fun x => unheard x ∨ q.escrow = x := by
  have hmem : e ∈ s.escrows := List.mem_of_find?_eq_some hq.stored
  -- The escrow is not completed, so its settlement goes beyond what the records tell.
  constructor
  case distinct => exact Gateway.Books.nodup_process h.distinct ..
  case stored =>
    intro a ha
    rcases Gateway.Books.mem_process ha with ha | rfl
    · exact h.stored a ha
    · exact ⟨e, hmem, by rw [hq.escrow], hq.seller⟩
  case completed =>
    intro d hd hc
    have hne : d.id ≠ q.escrow := by
      intro hid
      obtain rfl : d = e := List.inj_on_of_nodup_map hk.distinct hd hmem (hid.trans hq.escrow)
      exact hq.unpaid hc
    rw [settlementsOf_process_of_ne hne]
    exact h.completed d hd hc
  case settled =>
    intro d hd hne hsettled
    by_cases hid : d.id = q.escrow
    · exact .inr hid.symm
    · rw [settlementsOf_process_of_ne hid] at hsettled
      exact .inl (h.settled d hd hne hsettled)
  case moved =>
    intro x hx
    exact Gateway.Books.settlementsOf_process_ne_nil
      (hx.imp (h.moved x) fun hqx => by rw [hqx]) _ _

/-- A new escrow is not settled. -/
theorem creation (hk : Kept s c) (h : Booked s b unheard) {e : Escrow}
    (hid : e.id = Identifier.escrow (c.escrows + 1)) (hs : e.status = .pending)
    (cs : List Condition) : Booked (s.add e cs) b unheard := by
  have hnew : b.settlementsOf e.id.text = [] := by
    refine List.filter_eq_nil_iff.mpr fun q hq hqe => ?_
    obtain ⟨d, hd, hdq, -⟩ := h.stored q hq
    have hde : d.id = e.id := Identifier.text_injective (hdq.trans (of_decide_eq_true hqe))
    exact hk.fresh (List.mem_map.mpr ⟨d, hd, hde.trans hid⟩)
  refine ⟨h.distinct, fun q hq => ?_, fun d hd hc => ?_, fun d hd hne hsettled => ?_, h.moved⟩
  · obtain ⟨d, hd, hdq⟩ := h.stored q hq
    exact ⟨d, List.mem_append_left _ hd, hdq⟩
  · rcases List.mem_append.mp hd with hd | hd
    · exact h.completed d hd hc
    · rw [List.mem_singleton.mp hd, hs] at hc
      cases hc
  · rcases List.mem_append.mp hd with hd | hd
    · exact h.settled d hd hne hsettled
    · rw [List.mem_singleton.mp hd] at hsettled
      exact absurd hnew hsettled

section Deeds

variable {by' : Caller} {e : Escrow} {w : Writes} (now : Moment)

/-- Every record goes on with its identifier and its seller. -/
theorem stored_changed (h : Booked s b unheard) (x : Identifier) :
    ∀ q ∈ b.settlements, ∃ d ∈ (s.changed now x w).escrows,
      d.id.text = q.escrow ∧ d.recipient? = some q.beneficiary := by
  intro q hq
  obtain ⟨d, hd, hdq, hseller⟩ := h.stored q hq
  refine ⟨_, List.mem_map_of_mem hd, by rw [Writes.onRecord_id, hdq], ?_⟩
  unfold Writes.onRecord
  split
  next => rw [Escrow.recipient?, (Writes.view_people ..).1]; exact hseller
  next => exact hseller

/-- A deed without a payment does not touch what books and records have in common. -/
theorem unpaid (hk : Kept s c) (h : Booked s b unheard) (he : s.stored? e.id = some e)
    (hd : Deed by' e.loaded (s.conditionsOf e.id) w none) :
    Booked (s.changed now e.id w) b unheard := by
  have hsound : e.Sound := hk.sound e (List.mem_of_find?_eq_some he)
  have hview : (w.view now e).Sound := hd.view_sound hsound now
  have hsame := hd.settlements_of_unpaid now
  have hstatus : (w.view now e).status = .completed ↔ e.status = .completed := by
    rw [← not_iff_not]
    show (w.view now e).status ≠ .completed ↔ e.status ≠ .completed
    rw [← Escrow.settlements_eq_nil_iff hview, hsame, Escrow.settlements_eq_nil_iff hsound]
  refine ⟨h.distinct, h.stored_changed now e.id, fun d' hd' hc => ?_, fun d' hd' hne hs => ?_,
    h.moved⟩
  · rcases hk.mem_changed he hd' with rfl | ⟨hmem, -⟩
    · rw [Writes.view_id, hsame]
      exact h.completed e (List.mem_of_find?_eq_some he) (hstatus.mp hc)
    · exact h.completed d' hmem hc
  · rcases hk.mem_changed he hd' with rfl | ⟨hmem, -⟩
    · rw [Writes.view_id] at hs ⊢
      exact h.settled e (List.mem_of_find?_eq_some he) (fun hc => hne (hstatus.mpr hc)) hs
    · exact h.settled d' hmem hne hs

/-- A payment that was heard of completes its record, in the transaction of the books. -/
theorem paid (hk : Kept s c) (h : Booked s b unheard) (he : s.stored? e.id = some e)
    {q : SettleRequest} {t fresh : String}
    (hd : Deed by' e.loaded (s.conditionsOf e.id) w (some (q, t)))
    (ht : t = (b.settlement q.escrow.text q.beneficiary fresh).transaction) :
    Booked (s.changed now e.id w) (b.process q.escrow.text q.beneficiary fresh) unheard := by
  have hmem : e ∈ s.escrows := List.mem_of_find?_eq_some he
  obtain ⟨hid, hseller, hne, hpatch⟩ := hd.paid_spec
  have hid : q.escrow = e.id := hid
  have hseller : e.recipient? = some q.beneficiary := hseller
  have hcompleted : (w.view now e).status = .completed := Writes.status_view hpatch now
  have hsettlements : (w.view now e).settlements = [⟨e.id.text, q.beneficiary, t⟩] := by
    rw [hd.settlements (hk.sound e hmem) now,
      Escrow.settlements_of_ne_completed (hk.sound e hmem) hne]
    show [SettleRequest.settled (q, t)] = _
    rw [SettleRequest.settled, hid]
  rw [hid] at ht ⊢
  constructor
  case distinct => exact Gateway.Books.nodup_process h.distinct ..
  case stored =>
    intro a ha
    rcases Gateway.Books.mem_process ha with ha | rfl
    · exact h.stored_changed now e.id a ha
    · refine ⟨w.view now e, ?_, by rw [Writes.view_id], ?_⟩
      · exact List.mem_map.mpr ⟨e, hmem, by rw [Writes.onRecord, if_pos rfl]⟩
      · rw [Escrow.recipient?, (Writes.view_people ..).1]
        exact hseller
  case completed =>
    intro d' hd' hc
    rcases hk.mem_changed he hd' with rfl | ⟨hd, hne⟩
    · -- Whether it was settled before or not, the answer named the one transaction there is.
      rw [hsettlements, Writes.view_id, ht]
      refine Gateway.Books.settlementsOf_process h.distinct (fun a ha => ?_) fresh
      exact Option.some.inj ((h.beneficiary hk hmem ha).symm.trans hseller)
    · rw [settlementsOf_process_of_ne hne]
      exact h.completed d' hd hc
  case settled =>
    intro d' hd' hopen hs
    rcases hk.mem_changed he hd' with rfl | ⟨hd, hne⟩
    · exact absurd hcompleted hopen
    · rw [settlementsOf_process_of_ne hne] at hs
      exact h.settled d' hd hopen hs
  case moved =>
    exact fun x hx => Gateway.Books.settlementsOf_process_ne_nil (.inl (h.moved x hx)) _ _

end Deeds

end Booked

/-! ## Operations -/

namespace Remote

section Operations

variable {r : Remote} {p : Passage} {by' : Caller} {op : Operation}
  {unheard : Identifier → Prop}

/-- An operation that fails may have left a settlement behind, which went unheard then. -/
theorem booked_failed (hk : Kept r.store r.counters) (h : Booked r.store r.books unheard)
    {f : Failure} (hf : (r.outcome by' op p).result = .error f) :
    Booked r.store (r.booksAfter p (r.outcome by' op p).asked)
      fun x => unheard x ∨ r.Unheard x (.operation by' op p) := by
  rcases r.booksAfter_cases p (r.outcome by' op p).asked with ⟨hb, hnot⟩ | ⟨q, t, hsent, hp, hb⟩
  · rw [hb]
    refine h.congr rfl fun x => or_iff_left ?_
    rintro ⟨⟨q, hsent, -⟩, hp, -⟩
    exact hnot ⟨by rw [hsent]; rfl, hp⟩
  · obtain ⟨e, hdue⟩ := Operation.asked_run (eq_of_sent? hsent)
    rw [hb]
    refine (h.process hk hdue t).congr rfl fun x => or_congr_right ?_
    constructor
    · rintro ⟨⟨q', hsent', hx⟩, -⟩
      rw [hsent] at hsent'
      cases hsent'
      exact hx
    · exact fun hx => ⟨⟨q, hsent, hx⟩, hp, f, hf⟩

/-- An operation that goes through writes the settlement that it heard of into its record. -/
theorem booked_ok (hk : Kept r.store r.counters) (h : Booked r.store r.books unheard) {a : Answer}
    (ha : (r.outcome by' op p).result = .ok a) :
    Booked (r.outcome by' op p).store (r.booksAfter p (r.outcome by' op p).asked) unheard := by
  have hcomes : op.Comes (r.surroundings p) by' r.store r.store r.counters (r.outcome by' op p) :=
    op.run_comes _ hk.sound by' r.store r.counters
  generalize r.outcome by' op p = o at ha hcomes ⊢
  cases hcomes with
  | failed hf =>
    obtain ⟨f, hf⟩ := hf.error
    rw [ha] at hf
    cases hf
  | idle log a => exact h
  | @created n ps t asset e cs log closing _ hn hf he hc =>
    subst he
    exact (h.creation hk rfl rfl cs).congr rfl fun x => Iff.rfl
  | @done o e w paid _ hd answer =>
    have hescrows : o.store.escrows = (r.store.changed r.now e.id w).escrows := by
      rw [hd.store]
      exact Store.escrows_enterAll ..
    show Booked o.store (r.booksAfter p o.asked) unheard
    rw [hd.asked]
    -- What was paid for is in the books already, and the deed writes it into the record.
    cases paid with
    | none => exact (h.unpaid r.now hk hd.stored hd.deed).congr hescrows fun x => Iff.rfl
    | some q =>
      obtain ⟨q, t⟩ := q
      have hanswer := hd.answered (q, t) rfl
      rw [show (r.surroundings p).ask = r.ask p from rfl] at hanswer
      obtain ⟨fresh, hbooks, ht⟩ := heard hanswer
      rw [Option.map_some, hbooks]
      exact (h.paid r.now hk hd.stored hd.deed ht).congr hescrows fun x => Iff.rfl

/-- An operation keeps books and records in step, but for what goes unheard. -/
theorem booked_perform (hk : Kept r.store r.counters) (h : Booked r.store r.books unheard)
    (by' : Caller) (op : Operation) (p : Passage) :
    Booked (r.outcome by' op p).store (r.booksAfter p (r.outcome by' op p).asked)
      fun x => unheard x ∨ r.Unheard x (.operation by' op p) := by
  cases hr : (r.outcome by' op p).result with
  | error f =>
    rw [show (r.outcome by' op p).store = r.store from perform_store_of_error hr]
    exact booked_failed hk h hr
  | ok a =>
    refine (booked_ok hk h hr).congr rfl fun x => or_iff_left ?_
    rintro ⟨-, -, f, hf⟩
    have hf : (r.outcome by' op p).result = .error f := hf
    rw [hr] at hf
    cases hf

/-- An operation that asks the gateway fails exactly when it does not hear of a transaction. -/
theorem outcome_error_iff (hk : Kept r.store r.counters) {q : SettleRequest}
    (hq : (r.outcome by' op p).asked = some q) :
    (∃ f, (r.perform by' op p).1 = .error f) ↔ ¬∃ t, (r.ask p q).result = .ok t := by
  have hcomes : op.Comes (r.surroundings p) by' r.store r.store r.counters (r.outcome by' op p) :=
    op.run_comes _ hk.sound by' r.store r.counters
  rw [show r.ask p = (r.surroundings p).ask from rfl, ← hcomes.ok_iff hq]
  show (∃ f, (r.outcome by' op p).result = .error f) ↔ _
  cases (r.outcome by' op p).result <;> simp

/-- What goes unheard is what was lost on the way back, or cannot be taken from the address that it
comes from. -/
theorem unheard_iff_lost (hk : Kept r.store r.counters) (x : Identifier) :
    r.Unheard x (.operation by' op p) ↔ ∃ q a m, (r.outcome by' op p).asked = some q ∧
      q.escrow = x ∧ r.connection.settleRequest? q.escrow.text q.beneficiary = some (a, m) ∧
      ((∃ fresh s, p = .lost fresh s) ∨
        (∃ fresh, p = .answered fresh) ∧ a.tellsKind = false) := by
  constructor
  · rintro ⟨⟨q, hsent, hx⟩, hp, hf⟩
    obtain ⟨hasked, hrequest⟩ := Option.filter_eq_some_iff.mp hsent
    obtain ⟨⟨a, m⟩, ham⟩ := Option.isSome_iff_exists.mp hrequest
    rw [outcome_error_iff hk hasked, ask_eq_ok_iff ham] at hf
    refine ⟨q, a, m, hasked, hx, ham, ?_⟩
    cases p with
    | answered fresh => exact .inr ⟨⟨fresh, rfl⟩, by simpa using hf⟩
    | lost fresh s => exact .inl ⟨fresh, s, rfl⟩
    | missed s => cases hp
  · rintro ⟨q, a, m, hasked, hx, ham, hp⟩
    have hsent : r.sent? (r.outcome by' op p).asked = some q := by simp [sent?, hasked, ham]
    have hf : ¬((∃ fresh, p = .answered fresh) ∧ a.tellsKind = true) := by
      rcases hp with ⟨fresh, s, rfl⟩ | ⟨-, ha⟩
      · exact fun ⟨⟨_, h⟩, _⟩ => nomatch h
      · simp [ha]
    rw [← ask_eq_ok_iff ham, ← outcome_error_iff hk hasked] at hf
    refine ⟨⟨q, hsent, hx⟩, ?_, hf⟩
    rcases hp with ⟨fresh, s, rfl⟩ | ⟨⟨fresh, rfl⟩, -⟩ <;> rfl

end Operations

/-! ## Runs -/

/-- During happenings from a service on, an answer about an escrow went unheard. -/
def UnheardIn (r : Remote) (hs : List RemoteHappening) (x : Identifier) : Prop :=
  ∃ pre a post, hs = pre ++ a :: post ∧ (r.run pre).Unheard x a

theorem unheardIn_concat {r : Remote} {hs : List RemoteHappening} {a : RemoteHappening}
    {x : Identifier} :
    r.UnheardIn (hs ++ [a]) x ↔ r.UnheardIn hs x ∨ (r.run hs).Unheard x a := by
  constructor
  · rintro ⟨pre, b, post, hsplit, hb⟩
    rcases List.eq_nil_or_concat post with rfl | ⟨post, c, rfl⟩
    · obtain ⟨rfl, hab⟩ := List.append_inj' hsplit rfl
      cases hab
      exact .inr hb
    · rw [List.concat_eq_append, ← List.cons_append, ← List.append_assoc] at hsplit
      exact .inl ⟨pre, b, post, (List.append_inj' hsplit rfl).1, hb⟩
  · rintro (⟨pre, b, post, rfl, hb⟩ | ha)
    · exact ⟨pre, b, post ++ [a], by simp, hb⟩
    · exact ⟨hs, a, [], rfl, ha⟩

section Runs

variable (clock : Int) (settings : Settings) (dispatcher : Dispatcher) (lease : Option Lease)
  (connection : Connection)

/-- Throughout a run books and records are in step, but for what went unheard. -/
theorem booked_run (hs : List RemoteHappening) :
    let r₀ := start clock settings dispatcher lease connection
    Kept (r₀.run hs).store (r₀.run hs).counters ∧
      Booked (r₀.run hs).store (r₀.run hs).books (r₀.UnheardIn hs) := by
  intro r₀
  induction hs using List.reverseRec with
  | nil =>
    refine ⟨Kept.empty _, List.nodup_nil, (fun q hq => nomatch hq), (fun e he => nomatch he),
      (fun e he => nomatch he), ?_⟩
    rintro x ⟨pre, a, post, hsplit, -⟩
    simp at hsplit
  | append_singleton hs a ih =>
    obtain ⟨hk, hb⟩ := ih
    have hrun : r₀.run (hs ++ [a]) = (r₀.run hs).after a := List.foldl_concat ..
    rw [hrun]
    have still : ∀ {s : Store}, s = (r₀.run hs).store → (¬∃ x, (r₀.run hs).Unheard x a) →
        Booked s (r₀.run hs).books (r₀.UnheardIn (hs ++ [a])) := by
      rintro s rfl hnone
      refine hb.congr rfl fun x => unheardIn_concat.trans (or_iff_left fun h => hnone ⟨x, h⟩)
    cases a with
    | operation by' op p =>
      refine ⟨hk.comes (op.run_comes _ hk.sound by' _ _), ?_⟩
      exact (booked_perform hk hb by' op p).congr rfl fun x => unheardIn_concat
    | clock i => exact ⟨hk, still rfl fun ⟨_, h⟩ => h⟩
    | dispatcherBreaks reason => exact ⟨hk, still rfl fun ⟨_, h⟩ => h⟩
    | databaseBreaks reason => exact ⟨hk, still rfl fun ⟨_, h⟩ => h⟩
    | lease l => exact ⟨hk, still rfl fun ⟨_, h⟩ => h⟩

end Runs

end Remote

/-! ## A settlement that nobody heard of -/

/-- After every run of a service with a gateway, whatever is lost on the way to the gateway and back:
an escrow that is not completed, be it cancelled or open still, has been settled if and only if an
answer about it went unheard; one that is completed has been settled in the transaction of its record;
and each is settled at most once, and to its seller. -/
theorem settled_iff_unheard (clock : Int) (settings : Settings) (dispatcher : Dispatcher)
    (lease : Option Lease) (connection : Connection) (hs : List RemoteHappening) :
    let r₀ := Remote.start clock settings dispatcher lease connection
    let r := r₀.run hs
    ∀ e ∈ r.store.escrows,
      (e.status ≠ .completed →
        ((∃ q ∈ r.books.settlements, q.escrow = e.id.text) ↔ r₀.UnheardIn hs e.id)) ∧
      (e.status = .completed → ∃ b t, e.releaseTransaction = some t ∧
        r.books.settlements.filter (fun q => q.escrow = e.id.text) = [⟨e.id.text, b, t⟩]) ∧
      (∀ q ∈ r.books.settlements, q.escrow = e.id.text → ⟨q.beneficiary, .seller⟩ ∈ e.parties) ∧
      (r.books.settlements.filter fun q => q.escrow = e.id.text).length ≤ 1 := by
  intro r₀ r e he
  obtain ⟨hk, hb⟩ := Remote.booked_run clock settings dispatcher lease connection hs
  have hmem : ∀ q, q ∈ r.books.settlementsOf e.id.text ↔
      q ∈ r.books.settlements ∧ q.escrow = e.id.text := fun q => by
    simp [Books.settlementsOf]
  refine ⟨fun hne => ⟨?_, fun hu => ?_⟩, fun hc => ?_, fun q hq hid => ?_, ?_⟩
  · rintro ⟨q, hq, hid⟩
    exact hb.settled e he hne (List.ne_nil_of_mem ((hmem q).mpr ⟨hq, hid⟩))
  · obtain ⟨q, hq⟩ := List.exists_mem_of_ne_nil _ (hb.moved e.id hu)
    exact ⟨q, (hmem q).mp hq⟩
  · obtain ⟨b, t, -, ht, hone⟩ := Escrow.settlements_of_completed (hk.sound e he) hc
    exact ⟨b, t, ht, (hb.completed e he hc).trans hone⟩
  · exact Escrow.mem_parties_of_recipient? (hb.beneficiary hk he ((hmem q).mpr ⟨hq, hid⟩))
  · show (r.books.settlementsOf e.id.text).length ≤ 1
    by_cases hnil : r.books.settlementsOf e.id.text = []
    · rw [hnil]
      exact Nat.zero_le 1
    · obtain ⟨q, hq⟩ := List.exists_mem_of_ne_nil _ hnil
      rw [Gateway.Books.settlementsOf_eq_singleton hb.distinct hq]
      exact Nat.le_refl 1

/-- A way to a gateway. -/
def testConnection : Connection :=
  { base :=
      { scheme := "http".toList, userInfo := [], host := "ledger.test".toList, port := none
        path := [], query := none, fragment := none }
    authorization := none
    attempts := 3 }

/-- The sale is funded and released by its buyer, who gets no answer and cancels it. -/
def lostRelease : List RemoteHappening :=
  let buyer : Caller := ⟨"buyer", none⟩
  [.operation buyer (.create sale) (.answered "payment"),
    .operation buyer (.task (Identifier.escrow 1) (.activate (some "funds"))) (.answered "payment"),
    .operation buyer (.task (Identifier.escrow 1) (.release true))
      (.lost "payment" (.broken "ReadTimeout" "read timeout" true)),
    .operation buyer (.task (Identifier.escrow 1) (.cancel (some "release failed")))
      (.answered "payment")]

/-- The service after that. -/
def lostSale : Remote := (Remote.start 0 Settings.usual .recorder none testConnection).run lostRelease

/-- The sale is cancelled in the end, and the seller has been paid: an answer went unheard. -/
theorem settled_iff_unheard_lostSale :
    ∃ e ∈ lostSale.store.escrows, e.status = .cancelled ∧
      (∃ q ∈ lostSale.books.settlements, q.escrow = e.id.text) ∧
      (Remote.start 0 Settings.usual .recorder none testConnection).UnheardIn lostRelease e.id := by
  obtain ⟨e, he, hs, hq⟩ : ∃ e ∈ lostSale.store.escrows, e.status = .cancelled ∧
      ∃ q ∈ lostSale.books.settlements, q.escrow = e.id.text := by
    decide +kernel
  have hiff := settled_iff_unheard 0 Settings.usual .recorder none testConnection lostRelease e he
  refine ⟨e, he, hs, hq, (hiff.1 ?_).mp hq⟩
  rw [hs]
  decide

end Custody

import Custody.Proofs.Run

/-!
# Settled once

The ledger pays for an escrow at most once, and its settlements tell the same as the records: an
escrow is completed exactly when there is a settlement for it, and that one names the seller and the
transaction of the record.

> `settled_once`: so it is after every run.

What carries the induction is `Settled`: the settlements of an escrow are the one that its record
tells of. A deed that pays adds one settlement and finds an escrow without any (`Deed.settlements`).
-/

namespace Custody

/-- The settlement that a record tells of. -/
def Escrow.settlements (e : Escrow) : List Settlement :=
  match e.recipient?, e.releaseTransaction with
  | some b, some t => [⟨e.id.text, b, t⟩]
  | _, _ => []

/-- The settlements that a ledger has for an escrow. -/
def SimulatedLedger.settlementsOf (l : SimulatedLedger) (escrow : Identifier) : List Settlement :=
  l.settlements.filter fun q => q.escrow = escrow.text

/-- The settlement that was made for a request. -/
def SettleRequest.settled (q : SettleRequest × String) : Settlement :=
  ⟨q.1.escrow.text, q.1.beneficiary, q.2⟩

/-- A ledger settles what the records tell, and nothing else. -/
structure Settled (s : Store) (l : SimulatedLedger) : Prop where
  told : ∀ e ∈ s.escrows, l.settlementsOf e.id = e.settlements
  stored : ∀ q ∈ l.settlements, ∃ e ∈ s.escrows, e.id.text = q.escrow

/-! ## Settlements of a deed -/

section Deeds

variable {by' : Caller} {e : Escrow} {cs : List Condition} {w : Writes}
  {paid : Option (SettleRequest × String)}

/-- An escrow that is not completed tells of no settlement. -/
theorem Escrow.settlements_of_ne_completed (he : e.Sound) (hne : e.status ≠ .completed) :
    e.settlements = [] := by
  have hnone : e.releaseTransaction = none := by
    rw [← Option.not_isSome_iff_eq_none, he.settled_iff]
    exact hne
  unfold settlements
  rw [hnone]
  split <;> first | rfl | simp_all

/-- One that is completed tells of the payment of its seller. -/
theorem Escrow.settlements_of_completed (he : e.Sound) (hc : e.status = .completed) :
    ∃ b t, e.recipient? = some b ∧ e.releaseTransaction = some t ∧
      e.settlements = [⟨e.id.text, b, t⟩] := by
  obtain ⟨b, hb⟩ := he.paid hc
  obtain ⟨t, ht⟩ := Option.isSome_iff_exists.mp (he.settled_iff.mpr hc)
  exact ⟨b, t, hb, ht, by rw [settlements, hb, ht]⟩

/-- A record that becomes completed tells of the settlement. -/
theorem Escrow.settlements_completion {b t : String} (now : Moment) (hb : e.recipient? = some b) :
    ((Patch.completion t).applyAt now e).settlements = [⟨e.id.text, b, t⟩] := by
  have hb : ((Patch.completion t).applyAt now e).recipient? = some b := hb
  unfold settlements
  rw [hb]
  rfl

theorem Escrow.settlements_terms (now : Moment) (changes : List Change) :
    ((Patch.terms changes).applyAt now e).settlements = e.settlements := by
  obtain ⟨t, d, m, h⟩ := Writes.foldl_apply changes e
  simp only [Patch.applyAt, Patch.apply, h]
  rfl

/-- A payment is for the escrow of the deed, which has had none before. -/
theorem Deed.paid_spec {q : SettleRequest × String} (h : Deed by' e cs w (some q)) :
    q.1.escrow = e.id ∧ e.recipient? = some q.1.beneficiary ∧ e.status ≠ .completed ∧
      w.patch = some (.completion q.2) := by
  cases h with
  | decided hp hb hw => exact ⟨rfl, hb, permit_ne_completed hp, hw.patch_eq⟩
  | release hs hn hp hb hw => exact ⟨rfl, hb, by rw [hs]; decide, hw.patch_eq⟩
  | lastConfirmation hc hm hp hs hn ho hb hw => exact ⟨rfl, hb, by rw [hs]; decide, hw.patch_eq⟩

/-- Without a payment the record tells of the same settlement as before. -/
theorem Deed.settlements_of_unpaid (h : Deed by' e.loaded cs w none) (now : Moment) :
    (w.view now e).settlements = e.settlements := by
  have unchanged : w.patch = none → (w.view now e).settlements = e.settlements := by
    intro hp
    simp only [Writes.view, hp]
  have patched : ∀ p, w.patch = some p → (p.applyAt now e).settlements = e.settlements →
      (w.view now e).settlements = e.settlements := by
    intro p hp hs
    simp only [Writes.view, hp, hs]
  cases h with
  | sameTerms _ hw | releasedBefore _ hw | metBefore _ _ hw | confirmation _ _ _ _ hw =>
    exact unchanged hw.patch_eq
  | terms _ _ hw => exact patched _ hw.patch_eq (Escrow.settlements_terms now _)
  | activation _ hw | dispute _ hw | cancellation _ hw | expiry _ _ _ _ hw | refund _ hw =>
    exact patched _ hw.patch_eq rfl

/-- A deed adds to what a record tells of exactly the settlement that was made. -/
theorem Deed.settlements (he : e.Sound) (h : Deed by' e.loaded cs w paid) (now : Moment) :
    (w.view now e).settlements = e.settlements ++ (paid.map SettleRequest.settled).toList := by
  cases paid with
  | none => rw [h.settlements_of_unpaid now, Option.map_none, Option.toList_none, List.append_nil]
  | some q =>
    obtain ⟨hid, hb, hne, hp⟩ := h.paid_spec
    have hid : q.1.escrow = e.id := hid
    have hb : e.recipient? = some q.1.beneficiary := hb
    rw [Escrow.settlements_of_ne_completed he hne, Writes.view, hp]
    show ((Patch.completion q.2).applyAt now e).settlements = [SettleRequest.settled q]
    rw [Escrow.settlements_completion now hb, SettleRequest.settled, hid]

end Deeds

/-! ## Settlements of a run -/

theorem settlements_ledgerAfter {l : SimulatedLedger} {paid : Option (SettleRequest × String)}
    (h : ∀ q ∈ paid, l.answer = .ok q.2) :
    (Service.ledgerAfter l (paid.map (·.1))).settlements =
      l.settlements ++ (paid.map SettleRequest.settled).toList := by
  cases paid with
  | none => simp [Service.ledgerAfter]
  | some q =>
    have hq := h q rfl
    simp [Service.ledgerAfter, SimulatedLedger.settle, hq, SettleRequest.settled]

namespace Settled

/-- A new escrow has no settlement, for the ledger has none for an escrow that is not there. -/
theorem creation {s : Store} {c : Counters} {l : SimulatedLedger} (hk : Kept s c)
    (h : Settled s l) {e : Escrow} (hid : e.id = Identifier.escrow (c.escrows + 1)) (he : e.Sound)
    (hne : e.status ≠ .completed) (cs : List Condition) : Settled (s.add e cs) l := by
  constructor
  case told =>
    intro d hd
    rcases List.mem_append.mp hd with hd | hd
    · exact h.told d hd
    · rw [List.mem_singleton.mp hd, Escrow.settlements_of_ne_completed he hne]
      refine List.filter_eq_nil_iff.mpr fun q hq hqe => ?_
      obtain ⟨d, hd, hdq⟩ := h.stored q hq
      have hde : d.id = e.id := Identifier.text_injective (hdq.trans (by simpa using hqe))
      exact hk.fresh (List.mem_map.mpr ⟨d, hd, hde.trans hid⟩)
  case stored =>
    intro q hq
    obtain ⟨d, hd, hdq⟩ := h.stored q hq
    exact ⟨d, List.mem_append_left _ hd, hdq⟩

/-- A deed adds the same settlement on both sides. -/
theorem deed {v : Service} {by' : Caller} {e : Escrow} {w : Writes}
    {paid : Option (SettleRequest × String)} (hk : Kept v.store v.counters)
    (h : Settled v.store v.ledger) (he : v.store.stored? e.id = some e)
    (hd : Deed by' e.loaded (v.store.conditionsOf e.id) w paid)
    (ha : ∀ q ∈ paid, v.ledger.answer = .ok q.2) :
    Settled (v.store.changed v.now e.id w) (Service.ledgerAfter v.ledger (paid.map (·.1))) := by
  have hmem : e ∈ v.store.escrows := List.mem_of_find?_eq_some he
  have hl := settlements_ledgerAfter ha
  have hpaid : ∀ q ∈ (paid.map SettleRequest.settled).toList, q.escrow = e.id.text := by
    intro q hq
    obtain ⟨p, hp, rfl⟩ := Option.map_eq_some_iff.mp (Option.mem_toList.mp hq)
    subst hp
    rw [SettleRequest.settled, hd.paid_spec.1]
    rfl
  constructor
  case told =>
    intro d hd'
    have before : ∀ a ∈ v.store.escrows,
        v.ledger.settlements.filter (fun q => q.escrow = a.id.text) = a.settlements := h.told
    rw [SimulatedLedger.settlementsOf, hl, List.filter_append]
    -- The record of the deed gets the settlement that was made, and no other record does.
    rcases hk.mem_changed he hd' with rfl | ⟨hdm, hne⟩
    · rw [Writes.view_id, before e hmem, hd.settlements (hk.sound e hmem)]
      congr 1
      exact List.filter_eq_self.mpr fun q hq => by simpa using hpaid q hq
    · have hnone : ((paid.map SettleRequest.settled).toList.filter
          fun q => q.escrow = d.id.text) = [] := by
        refine List.filter_eq_nil_iff.mpr fun q hq hqd => hne ?_
        exact Identifier.text_injective ((of_decide_eq_true hqd).symm.trans (hpaid q hq))
      rw [before d hdm, hnone, List.append_nil]
  case stored =>
    intro q hq
    rw [hl] at hq
    rcases List.mem_append.mp hq with hq | hq
    · obtain ⟨d, hdm, hdq⟩ := h.stored q hq
      exact ⟨_, List.mem_map_of_mem hdm, by rw [Writes.onRecord_id]; exact hdq⟩
    · exact ⟨_, List.mem_map_of_mem hmem, by rw [Writes.onRecord_id, hpaid q hq]⟩

/-- Events do not matter, nor does what the ledger keeps beside its settlements. -/
theorem congr {s t : Store} {l m : SimulatedLedger} (h : Settled s l) (he : t.escrows = s.escrows)
    (hl : m.settlements = l.settlements) : Settled t m := by
  refine ⟨fun e hm => ?_, ?_⟩
  · rw [he] at hm
    rw [SimulatedLedger.settlementsOf, hl]
    exact h.told e hm
  · rw [he, hl]
    exact h.stored

end Settled

/-- The ledger of every run has settled what the records tell. -/
theorem Reachable.settled {v : Service} (h : Reachable v) : Settled v.store v.ledger := by
  refine h.invariant (I := fun v => Settled v.store v.ledger) ?start ?effect ?other
  case start =>
    intro clock settings dispatcher lease
    exact ⟨(fun e he => nomatch he), (fun q hq => nomatch hq)⟩
  case effect =>
    intro v u by' hv ih hu
    cases hu with
    | nothing => exact ih
    | @creation n ps t asset e cs hn hf he hc =>
      subst he
      have hnew := Settled.creation hv.kept ih rfl
        (NewEscrow.record_sound hn hf (Identifier.escrow (v.counters.escrows + 1)) v.now)
        (fun hp => nomatch hp) cs
      exact hnew.congr rfl rfl
    | @deed e w paid he hd ha =>
      exact (Settled.deed hv.kept ih he hd ha).congr (Store.escrows_enterAll ..) rfl
  case other =>
    intro v u hstore _ hledger ih
    exact ih.congr (congrArg Store.escrows hstore) hledger

/-- No escrow has been settled twice. -/
theorem Settled.length_le_one {s : Store} {l : SimulatedLedger} (h : Settled s l)
    (x : Identifier) : (l.settlementsOf x).length ≤ 1 := by
  by_cases hx : ∃ e ∈ s.escrows, e.id = x
  · obtain ⟨e, he, rfl⟩ := hx
    rw [h.told e he]
    unfold Escrow.settlements
    split <;> simp
  · have hnone : l.settlementsOf x = [] := by
      refine List.filter_eq_nil_iff.mpr fun q hq hqx => hx ?_
      obtain ⟨e, he, heq⟩ := h.stored q hq
      exact ⟨e, he, Identifier.text_injective (heq.trans (of_decide_eq_true hqx))⟩
    rw [hnone]
    exact Nat.zero_le 1

/-! ## Exactly once -/

theorem Escrow.mem_parties_of_recipient? {e : Escrow} {b : String} (h : e.recipient? = some b) :
    ⟨b, .seller⟩ ∈ e.parties := by
  obtain ⟨p, hp, rfl⟩ := Option.map_eq_some_iff.mp h
  have hr : p.role = .seller := by simpa using List.find?_some hp
  rw [← hr]
  exact List.mem_of_find?_eq_some hp

/-- A sound record has no other seller than the one who is paid. -/
theorem Escrow.Sound.seller_unique {e : Escrow} (he : e.Sound) {a b : String}
    (ha : ⟨a, .seller⟩ ∈ e.parties) (hb : ⟨b, .seller⟩ ∈ e.parties) : a = b := by
  have hone := he.seller
  have hmem : ∀ u, ⟨u, .seller⟩ ∈ e.parties →
      (⟨u, .seller⟩ : Party) ∈ e.parties.filter fun p => p.role = .seller :=
    fun u hu => List.mem_filter.mpr ⟨hu, by simp⟩
  have ha := hmem a ha
  have hb := hmem b hb
  generalize e.parties.filter (fun p => decide (p.role = .seller)) = l at hone ha hb
  match l, hone with
  | [], _ => cases ha
  | [p], _ =>
    rw [List.mem_singleton] at ha hb
    exact congrArg Party.user (ha.trans hb.symm)

/-- After every run an escrow is completed, released and settled in its record together. The ledger
has one settlement for it then, of the transaction of the record to the only seller, and none
before; and every settlement is for an escrow that is there. -/
theorem settled_once {v : Service} (h : Reachable v) :
    (∀ e ∈ v.store.escrows,
      (e.released = true ↔ e.status = .completed) ∧
      (e.releaseTransaction.isSome = true ↔ e.status = .completed) ∧
      (e.status = .completed → ∃ b t, ⟨b, .seller⟩ ∈ e.parties ∧
        (∀ u, ⟨u, .seller⟩ ∈ e.parties → u = b) ∧ e.releaseTransaction = some t ∧
        v.ledger.settlements.filter (fun q => q.escrow = e.id.text) = [⟨e.id.text, b, t⟩]) ∧
      (e.status ≠ .completed →
        v.ledger.settlements.filter (fun q => q.escrow = e.id.text) = [])) ∧
    ∀ q ∈ v.ledger.settlements, ∃ e ∈ v.store.escrows, e.id.text = q.escrow := by
  refine ⟨fun e he => ?_, h.settled.stored⟩
  have hs : e.Sound := h.kept.sound e he
  have htold : v.ledger.settlements.filter (fun q => q.escrow = e.id.text) = e.settlements :=
    h.settled.told e he
  refine ⟨hs.released_iff, hs.settled_iff, fun hc => ?_, fun hne => ?_⟩
  · obtain ⟨b, hb⟩ := hs.paid hc
    obtain ⟨t, ht⟩ := Option.isSome_iff_exists.mp (hs.settled_iff.mpr hc)
    have hseller := Escrow.mem_parties_of_recipient? hb
    refine ⟨b, t, hseller, fun u hu => hs.seller_unique hu hseller, ht, ?_⟩
    rw [htold, Escrow.settlements, hb, ht]
  · rw [htold, Escrow.settlements_of_ne_completed hs hne]

/-- The sale once both conditions are confirmed, the second time with a ledger that works again. -/
def paidService : Service :=
  soldService.run
    [.operation ⟨"seller", none⟩ (.confirm (Identifier.condition 1)),
      .ledgerFails (some (.breakdown "no answer")),
      .operation ⟨"buyer", none⟩ (.confirm (Identifier.condition 2)), .ledgerFails none,
      .operation ⟨"buyer", none⟩ (.confirm (Identifier.condition 2)),
      .operation ⟨"buyer", none⟩ (.task (Identifier.escrow 1) (.release true))]

/-- The seller of the sale was paid once. -/
theorem settled_once_paidService :
    paidService.store.escrows.map (·.status) = [.completed] ∧
      paidService.ledger.settlements.length = 1 ∧
      ∀ e ∈ paidService.store.escrows, ∃ b t, ⟨b, .seller⟩ ∈ e.parties ∧
        (∀ u, ⟨u, .seller⟩ ∈ e.parties → u = b) ∧ e.releaseTransaction = some t ∧
        paidService.ledger.settlements.filter (fun q => q.escrow = e.id.text) =
          [⟨e.id.text, b, t⟩] := by
  have hstatus : paidService.store.escrows.map (·.status) = [.completed] := by decide +kernel
  refine ⟨hstatus, by decide +kernel, fun e he => ?_⟩
  have hc : e.status = .completed := by
    have hmem : e.status ∈ paidService.store.escrows.map (·.status) := List.mem_map_of_mem he
    rw [hstatus] at hmem
    exact List.mem_singleton.mp hmem
  exact ((settled_once (soldService_reachable.run _)).1 e he).2.2.1 hc

end Custody

import Custody.Proofs.Chronicle
import Custody.Proofs.Notice

/-!
# One escrow at a time

An operation is about one escrow, and others are spared: what the store has about them is as it was,
the ledger pays nothing for them, and nobody is notified about them. The escrow that it is about is
spared, too, once it is closed.

> `Operation.spares`: an operation spares every escrow that it is not about, and every closed one.
> `Service.spared_perform`: so nothing of it is to be seen there.
-/

namespace Custody

/-! ## Notifications -/

namespace Notification

/-- The escrow that a notification is about, by the text of its identifier. -/
def escrow? (n : Notification) : Option String :=
  match n.payload.lookup "escrow_id" with
  | some (.json (.text x)) => some x
  | _ => none

/-- A member that is replaced is no other. -/
theorem lookup_replace {j k : String} (h : j ≠ k) (x : LogValue)
    (payload : List (String × LogValue)) :
    (payload.map fun m => if m.1 = j then (j, x) else m).lookup k = payload.lookup k := by
  have hj : (k == j) = false := beq_eq_false_iff_ne.mpr h.symm
  induction payload with
  | nil => rfl
  | cons m payload ih =>
    rw [List.map_cons]
    by_cases hm : m.1 = j
    · have hmk : (k == m.1) = false := by rw [hm, hj]
      rw [if_pos hm, List.lookup_cons, List.lookup_cons, hj, hmk, ih]
    · rw [if_neg hm, List.lookup_cons, List.lookup_cons, ih]

/-- Of a member that is set the value is found. -/
theorem lookup_replace_self {k : String} (x : LogValue) {payload : List (String × LogValue)}
    (h : ∃ m ∈ payload, m.1 = k) :
    (payload.map fun m => if m.1 = k then (k, x) else m).lookup k = some x := by
  induction payload with
  | nil => obtain ⟨m, hm, -⟩ := h; cases hm
  | cons m payload ih =>
    rw [List.map_cons]
    by_cases hm : m.1 = k
    · rw [if_pos hm, List.lookup_cons_self]
    · have hk : (k == m.1) = false := beq_eq_false_iff_ne.mpr (Ne.symm hm)
      obtain ⟨d, hd, hdk⟩ := h
      have hrest : ∃ d ∈ payload, d.1 = k := by
        rcases List.mem_cons.mp hd with rfl | hd
        · exact absurd hdk hm
        · exact ⟨d, hd, hdk⟩
      rw [if_neg hm, List.lookup_cons, hk]
      exact ih hrest

/-- Members of other names do not change a value of a payload. -/
theorem lookup_extend {k : String} {extra : List (String × LogValue)} (h : ∀ m ∈ extra, m.1 ≠ k)
    (payload : List (String × LogValue)) :
    (extend payload extra).lookup k = payload.lookup k := by
  unfold extend
  induction extra generalizing payload with
  | nil => rfl
  | cons m extra ih =>
    have hm : m.1 ≠ k := h m (List.mem_cons_self ..)
    have hk : (k == m.1) = false := beq_eq_false_iff_ne.mpr hm.symm
    rw [List.foldl_cons, ih fun m hm => h m (List.mem_cons_of_mem _ hm)]
    obtain ⟨j, x⟩ := m
    simp only
    split
    next => exact lookup_replace hm x payload
    next => rw [List.lookup_append, List.lookup_cons, hk, List.lookup_nil, Option.or_none]

/-- A payload has the values that it was extended with. -/
theorem lookup_extend_self {k : String} {x : LogValue} {extra : List (String × LogValue)}
    (hn : (extra.map (·.1)).Nodup) (hm : (k, x) ∈ extra) (payload : List (String × LogValue)) :
    (extend payload extra).lookup k = some x := by
  induction extra generalizing payload with
  | nil => cases hm
  | cons m extra ih =>
    obtain ⟨hnew, hn⟩ := List.nodup_cons.mp hn
    rcases List.mem_cons.mp hm with rfl | hm
    · -- The names behind it are others, so they leave the value that is set here.
      have hothers : ∀ m ∈ extra, m.1 ≠ k := fun m hm h => hnew (List.mem_map.mpr ⟨m, hm, h⟩)
      rw [extend, List.foldl_cons]
      refine (lookup_extend hothers _).trans ?_
      simp only
      split
      next hany =>
        obtain ⟨m, hm, hmk⟩ := List.any_eq_true.mp hany
        exact lookup_replace_self x ⟨m, hm, of_decide_eq_true hmk⟩
      next hnone =>
        have hnone : payload.lookup k = none := by
          refine List.lookup_eq_none_iff.mpr fun m hm => bne_iff_ne.mpr ?_
          exact fun h => hnone (List.any_eq_true.mpr ⟨m, hm, decide_eq_true h.symm⟩)
        rw [List.lookup_append, hnone, List.lookup_cons_self]
        rfl
    · exact ih hn hm _

/-- The names of the members that tell the state of an escrow. -/
def stateNames : List String :=
  ["escrow_id", "status", "amount", "asset", "creator_id", "recipient_id"]

end Notification

/-- An announcement tells which escrow it is about, whatever it adds. -/
theorem Announcement.escrow?_about {a : Announcement} (h : ∀ m ∈ a.extra, m.1 ≠ "escrow_id")
    (e : Escrow) : (a.about e).escrow? = some e.id.text := by
  unfold Notification.escrow? about Notification.ofState
  rw [Notification.lookup_extend h]
  rfl

/-- What a deed announces adds to the state of the escrow, under names of its own. -/
theorem Deed.extra_ne {by' : Caller} {e : Escrow} {cs : List Condition} {w : Writes}
    {paid : Option (SettleRequest × String)} (h : Deed by' e cs w paid) {a : Announcement}
    (ha : w.announcement = some a) {k : String} (hk : k ∈ Notification.stateNames) :
    ∀ m ∈ a.extra, m.1 ≠ k := by
  have key : ∀ m ∈ a.extra, m.1 ∉ Notification.stateNames := by
    cases h with
    | sameTerms _ hw | releasedBefore _ hw | metBefore _ _ hw | confirmation _ _ _ _ hw =>
      rw [hw.announcement_eq] at ha
      cases ha
    | terms _ _ hw | activation _ hw | dispute _ hw | cancellation _ hw | expiry _ _ _ _ hw
    | refund _ hw | decided _ _ hw | release _ _ _ _ hw | lastConfirmation _ _ _ _ _ _ _ hw =>
      rw [hw.announcement_eq] at ha
      cases ha
      simp [paymentNote, Notification.stateNames]
  exact fun m hm hmk => key m hm (hmk ▸ hk)

/-- Writes that come to nothing leave the records as they were. -/
theorem Store.changed_of_come {w : Writes} {drafts : List EventDraft}
    {announcement : Option Announcement} (hw : w.Come none none drafts announcement) (s : Store)
    (now : Moment) (x : Identifier) : s.changed now x w = s := by
  have hrecord : w.onRecord now x = id := by
    funext e
    rw [Writes.onRecord, Writes.view_of_none hw.patch_eq, ite_self, id]
  have hcondition : w.onCondition now = id := by
    funext c
    simp only [Writes.onCondition, hw.met_eq, id]
  rw [changed, hrecord, hcondition, List.map_id, List.map_id]

/-! ## Spared escrows -/

/-- A piece of work that leaves an escrow alone. -/
structure Outcome.Spares {α : Type} (o : Outcome α) (v : Service) (x : Identifier) : Prop where
  part : o.store.part x = v.store.part x
  asked : ∀ r ∈ o.asked, r.escrow ≠ x ∨ ∃ f, v.ledger.answer = .error f
  announced : ∀ n ∈ o.announced, n.escrow? ≠ some x.text

/-- Nothing has happened to an escrow, and nobody is told about it: what the store has about it and
its settlements are as they were, and what the dispatcher gets, if anything, is about another one. -/
structure Service.Spared (v w : Service) (fx : Effects) (x : Identifier) : Prop where
  part : w.store.part x = v.store.part x
  settlements : w.ledger.settlementsOf x = v.ledger.settlementsOf x
  settled : ∀ q ∈ fx.settled, q.escrow ≠ x.text
  told : ∃ note, (∀ n ∈ note, n.escrow? ≠ some x.text) ∧ fx.Delivers (v.delivery note)

namespace Outcome

section Work

variable {v : Service} {by' : Caller} {x : Identifier} {d : Escrow} {w : Writes}
  {paid : Option (SettleRequest × String)}

theorem Spares.mapResult {α β : Type} {o : Outcome α} (h : o.Spares v x) (f : α → β) :
    (o.mapResult f).Spares v x :=
  ⟨h.part, h.asked, h.announced⟩

/-- What has come to nothing spares everybody. -/
theorem Failed.spares {α : Type} {o : Outcome α} (h : o.Failed v.store v.counters v.ask)
    (x : Identifier) : o.Spares v x := by
  refine ⟨by rw [h.store], fun r hr => .inr ?_, fun n hn => ?_⟩
  · obtain ⟨g, hg⟩ := h.asked r hr
    rw [Service.ask_result] at hg
    exact ⟨g, hg⟩
  · rw [h.announced] at hn
    cases hn

/-- What is announced of a deed is about its escrow. -/
theorem Done.escrow?_announced {env : Surroundings} {s : Store} {c : Counters} {o : Outcome Escrow}
    (h : o.Done env by' d s c w paid) : ∀ n ∈ o.announced, n.escrow? = some d.id.text := by
  intro n hn
  rw [h.announced] at hn
  obtain ⟨a, ha, rfl⟩ := Option.map_eq_some_iff.mp hn
  rw [Announcement.escrow?_about (h.deed.extra_ne ha (by decide)), Writes.view_id]
  rfl

/-- A deed spares all other escrows. -/
theorem Done.spares_of_ne {o : Outcome Escrow} (hk : Kept v.store v.counters)
    (h : o.Done v.surroundings by' d v.store v.counters w paid) (hx : d.id ≠ x) :
    o.Spares v x := by
  refine ⟨?part, fun r hr => .inl ?asked, fun n hn => ?announced⟩
  case part =>
    rw [h.store]
    exact Store.part_written_deed hk.conditionsDistinct h.deed hx.symm _ _
  case asked =>
    rw [h.asked] at hr
    obtain ⟨q, rfl, rfl⟩ := Option.map_eq_some_iff.mp hr
    rw [h.deed.paid_spec.1]
    exact hx
  case announced =>
    rw [h.escrow?_announced n hn]
    exact fun hid => hx (Identifier.text_injective (Option.some.inj hid))

/-- A deed on a closed escrow spares even that one. -/
theorem Done.spares_of_isTerminal {o : Outcome Escrow}
    (h : o.Done v.surroundings by' d v.store v.counters w paid) (ht : d.status.isTerminal = true)
    (x : Identifier) : o.Spares v x := by
  obtain ⟨hw, rfl⟩ := h.deed.come_of_isTerminal ht
  refine ⟨?part, fun r hr => ?asked, fun n hn => ?announced⟩
  case part => rw [h.store, hw.drafts_eq, Store.enterAll, Store.changed_of_come hw]
  case asked =>
    rw [h.asked] at hr
    cases hr
  case announced =>
    rw [h.announced, hw.announcement_eq] at hn
    cases hn

end Work

end Outcome

/-! ## Operations -/

/-- An operation spares every escrow that it is not about, and every closed one. -/
theorem Operation.spares {v : Service} (hk : Kept v.store v.counters) {e : Escrow}
    (he : e ∈ v.store.escrows) (by' : Caller) {op : Operation}
    (h : op.target? v.store = some e.id → e.status.isTerminal = true) :
    (op.run v.surroundings by' v.store v.store v.counters).Spares v e.id := by
  have hcomes := op.run_comes v.surroundings hk.sound by' v.store v.counters
  generalize op.run v.surroundings by' v.store v.store v.counters = o at hcomes ⊢
  cases hcomes with
  | failed ho => exact ho.spares _
  | idle log a => exact ⟨rfl, (fun r hr => nomatch hr), (fun n hn => nomatch hn)⟩
  | @created n ps t asset d cs log closing hop hn hf hd hc =>
    -- The new escrow takes an identifier that nothing had.
    have hne : e.id ≠ d.id := by
      intro hid
      refine hk.fresh (List.mem_map.mpr ⟨e, he, ?_⟩)
      rw [hid, hd]
      rfl
    refine ⟨Store.part_add_of_ne (fun c hcm => ?_) hne _ _ _, (fun r hr => nomatch hr),
      fun m hm => ?_⟩
    · rw [hc] at hcm
      exact (mem_numberConditions hcm).1
    · cases hm
      rw [Announcement.escrow?_about (by simp)]
      exact fun hid => hne (Identifier.text_injective (Option.some.inj hid)).symm
  | @done o d w paid hx ho answer =>
    refine Outcome.Spares.mapResult ?_ answer
    by_cases hde : d.id = e.id
    · have hmem : d = e :=
        List.inj_on_of_nodup_map hk.distinct (List.mem_of_find?_eq_some ho.stored) he hde
      subst hmem
      exact ho.spares_of_isTerminal (h hx) _
    · exact ho.spares_of_ne hk hde

/-! ## What is to be seen -/

namespace Service

variable {v : Service} {x : Identifier}

/-- Where nothing happens to a service everybody is spared. -/
theorem spared_of_eq {w : Service} {fx : Effects} (hstore : w.store = v.store)
    (hledger : w.ledger.settlements = v.ledger.settlements) (hs : fx.settled = [])
    (hd : fx.Delivers .none) (x : Identifier) : v.Spared w fx x := by
  refine ⟨by rw [hstore], ?_, ?_, none, (fun n hn => nomatch hn), hd⟩
  · rw [SimulatedLedger.settlementsOf, hledger]
    rfl
  · rw [hs]
    exact List.forall_mem_nil _

/-- What a ledger has settled after a question is for no escrow but the one of the question. -/
theorem settlements_ledgerAfter_append {l : SimulatedLedger} {asked : Option SettleRequest}
    (h : ∀ r ∈ asked, r.escrow ≠ x ∨ ∃ f, l.answer = .error f) :
    ∃ qs, (ledgerAfter l asked).settlements = l.settlements ++ qs ∧
      ∀ q ∈ qs, q.escrow ≠ x.text := by
  have unsettled : ∃ qs, l.settlements = l.settlements ++ qs ∧ ∀ q ∈ qs, q.escrow ≠ x.text :=
    ⟨[], (List.append_nil _).symm, fun q hq => nomatch hq⟩
  cases asked with
  | none => exact unsettled
  | some r =>
    simp only [ledgerAfter, SimulatedLedger.settle]
    cases ha : l.answer with
    | error f => exact unsettled
    | ok t =>
      refine ⟨[⟨r.escrow.text, r.beneficiary, t⟩], rfl, fun q hq => ?_⟩
      rw [List.mem_singleton.mp hq]
      rcases h r rfl with hr | ⟨f, hf⟩
      · exact fun hid => hr (Identifier.text_injective hid)
      · rw [ha] at hf
        cases hf

/-- Of an operation that spares an escrow nothing is to be seen there. -/
theorem spared_of_spares {w : Service} {fx : Effects} {by' : Caller} {op : Operation}
    (h : (op.run v.surroundings by' v.store v.store v.counters).Spares v x)
    (hstore : w.store = (v.perform by' op).2.1.store)
    (hledger : w.ledger = (v.perform by' op).2.1.ledger)
    (hs : fx.settled = (v.perform by' op).2.2.settled)
    (hd : fx.Delivers (v.delivery (v.announced by' op))) : v.Spared w fx x := by
  obtain ⟨qs, hqs, hne⟩ := settlements_ledgerAfter_append h.asked
  have hnone : (qs.filter fun q => q.escrow = x.text) = [] :=
    List.filter_eq_nil_iff.mpr fun q hq => by simpa using hne q hq
  refine ⟨by rw [hstore]; exact h.part, ?_, ?_, v.announced by' op, h.announced, hd⟩
  · rw [hledger]
    show List.filter _ (ledgerAfter v.ledger _).settlements = _
    rw [hqs, List.filter_append, hnone, List.append_nil]
    rfl
  · rw [hs]
    show ∀ q ∈ List.drop _ (ledgerAfter v.ledger _).settlements, _
    rw [hqs, List.drop_left]
    exact hne

/-- An operation leaves no trace on an escrow that it is not about, nor on a closed one. -/
theorem spared_perform (hk : Kept v.store v.counters) {e : Escrow} (he : e ∈ v.store.escrows)
    (by' : Caller) {op : Operation}
    (h : op.target? v.store = some e.id → e.status.isTerminal = true) :
    v.Spared (v.perform by' op).2.1 (v.perform by' op).2.2 e.id :=
  spared_of_spares (Operation.spares hk he by' h) rfl rfl rfl (v.delivers_perform by' op)

end Service

end Custody

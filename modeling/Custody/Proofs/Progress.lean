import Custody.Proofs.Confirmation
import Custody.Proofs.Portrait

/-!
# Only the ledger stops a confirmation

The release that follows the last confirmation asks everything again: whether the escrow is active,
whether a condition is open, whether there is a seller. After a confirmation that was permitted the
answers are known, so these refusals are never given there. What is left is the ledger, and only
the last confirmation asks it.

> `Life.seller`: an escrow with conditions has a seller.
> `planConfirmation_next`: a confirmation that is permitted finishes, or goes on to the payment.
> `confirmation_stopped_by_ledger`: so nothing but the ledger stops it.
-/

namespace Custody

/-! ## There is somebody to pay -/

/-- Terms with conditions are accepted with a seller only. -/
theorem NewEscrow.define_seller {n : NewEscrow} {creator : String} {ps : List Party}
    {t : EscrowType} (h : n.define creator = .ok (ps, t)) (hn : n.conditions ≠ []) :
    ∃ b, Custody.recipient? ps = some b := by
  unfold define at h
  simp only at h
  split at h
  next => cases h
  next =>
    split at h
    next qs _ =>
      simp only [pure_bind] at h
      split at h
      next => cases h
      next hseller =>
        have hqs : qs = ps := by
          split at h
          next => cases h; rfl
          next => cases h
        subst hqs
        cases hb : Custody.recipient? qs with
        | some b => exact ⟨b, rfl⟩
        | none => exact absurd ⟨by simpa using hn, hb⟩ hseller
    next => cases h
  next => cases h

/-- An escrow with conditions has a seller. -/
theorem Life.seller {by' : Caller} {n : NewEscrow} {e : Escrow} {cs : List Condition}
    {es : List Event} (h : Life by' n e cs es) (hcs : cs ≠ []) : ∃ b, e.recipient? = some b := by
  induction h with
  | created hn hf he hc =>
    subst he hc
    refine NewEscrow.define_seller hn fun hnone => hcs ?_
    rw [hnone]
    rfl
  | deed h hd now i ih =>
    rw [Escrow.recipient?, (Writes.view_people ..).1]
    exact ih fun hnil => hcs (by rw [hnil, List.map_nil])

/-! ## Plans -/

/-- What an answer of the ledger makes of the payment of an escrow: a refusal is reported as a failed
settlement, anything else that went wrong as it is. -/
def LedgerAnswer.verdict (a : LedgerAnswer) (x : Identifier) : Except Failure Unit :=
  match a.result with
  | .ok _ => .ok ()
  | .error (.escrow (.ledger f)) => .error (.escrow (.settlementFailed x.text f.message))
  | .error f => .error f

/-- A plan that comes to a payment is up to the ledger. -/
theorem Plan.conclude_of_payOut {p : Plan} {r : SettleRequest} {paid : String → Writes}
    (h : p.next = .payOut r paid) (ask : SettleRequest → LedgerAnswer) :
    (p.conclude ask).verdict = (ask r).verdict r.escrow ∧ (p.conclude ask).asked = some r := by
  unfold conclude LedgerAnswer.verdict
  simp only [h]
  generalize (ask r).result = a
  cases a with
  | ok t => exact ⟨rfl, rfl⟩
  | error f => split <;> simp_all

/-- Whoever holds a role may confirm a condition of an active escrow. -/
theorem permit_confirmCondition {e : Escrow} {user : String} (hs : e.status = .active)
    (hp : ∃ r, ⟨user, r⟩ ∈ e.parties) : permit e user .confirmCondition = .ok () := by
  obtain ⟨r, hr⟩ := hp
  rw [permit_eq_ok_iff, hs]
  exact .inr ⟨_, rfl, r, by cases r <;> decide, hr⟩

/-- A confirmation that is permitted finishes while another condition is open. After the last one the
release finds nothing in its way and goes on to the payment. -/
theorem planConfirmation_next {e : Escrow} {cs : List Condition} {c : Condition} {by' : Caller}
    (hf : cs.find? (fun d => d.id = c.id) = some c) (hm : c.met = false)
    (hp : permit e by'.user .confirmCondition = .ok ()) :
    ((∃ d ∈ cs, d.id ≠ c.id ∧ d.met = false) →
      (planConfirmation c.id by' e cs).next = .finish) ∧
    ((∀ d ∈ cs, d.id ≠ c.id → d.met = true) → e.status = .active → e.released = false →
      ∀ b, e.recipient? = some b →
        ∃ paid, (planConfirmation c.id by' e cs).next = .payOut ⟨e.id, b⟩ paid) := by
  have hopen : ¬c.met = true := by rw [hm]; decide
  unfold planConfirmation
  simp only [hf, if_neg hopen, hp]
  constructor
  · rintro ⟨d, hd, hne, hdm⟩
    have hrest : ¬∀ d ∈ cs, d.id ≠ c.id → d.met = true := by
      intro hall
      rw [hall d hd hne] at hdm
      cases hdm
    rw [if_neg (mt openConditions_met_eq_nil_iff.mp hrest)]
  · intro hall hs hr b hb
    have hrest := openConditions_met_eq_nil_iff.mpr hall
    rw [if_pos hrest, planRelease_of_active hs hr hrest]
    exact ⟨_, planPayout_of_active hs hb⟩

/-! ## Transactions -/

/-- Surroundings in which nothing but the ledger can be out of order. -/
structure Surroundings.InOrder (env : Surroundings) : Prop where
  database : env.database = none
  lease : (env.lease.any fun l => !l.acquired) = false

/-- A condition that was met at a time by a user. -/
def Condition.confirmed (c : Condition) (now : Moment) (user : String) : Condition :=
  { c with met := true, metAt := some now, metBy := some user }

section Transactions

variable {env : Surroundings} {s : Store} {n : Counters} {e : Escrow} {c : Condition}

/-- A confirmation goes through when its plan does, and leaves the condition met. -/
theorem carryOut_confirmation (hd : (s.conditions.map (·.id)).Nodup)
    (he : s.stored? e.id = some e) (hsound : e.Sound) (hc : c ∈ s.conditionsOf e.id)
    (hm : c.met = false) {by' : Caller} {k : Conclusion}
    (hk : (planConfirmation c.id by' e.loaded (s.conditionsOf e.id)).conclude env.ask = k)
    (hv : k.verdict = .ok ()) :
    ∃ o : Outcome Escrow, carryOut env e.id (planConfirmation c.id by') s n = o ∧
      (∃ x, o.result = .ok x) ∧ o.asked = k.asked ∧
      o.store.condition? c.id = some (c.confirmed env.now by'.user) := by
  have hread : s.escrow? e.id = some e.loaded := Store.escrow?_of_stored? he
  have hv' := hv
  rw [← hk] at hv'
  obtain ⟨d, hd', hid, hmet⟩ := planConfirmation_met hv'
  obtain ⟨paid, hdeed, -, -⟩ :=
    isDeed_planConfirmation (fun hr : e.loaded.released = true => hsound.released_iff.mp hr) hv'
  rw [hk] at hmet hdeed
  obtain rfl : d = c := List.inj_on_of_nodup_map (Store.nodup_conditionsOf hd e.id) hd' hc hid
  have hmet : k.writes.met = some (d.id, by'.user) := by
    rcases hmet with hmet | hmet
    · rw [hm] at hmet
      cases hmet
    · exact hmet
  refine ⟨_, carryOut_of_ok hread hk hv (hdeed.apply_eq_ok hsound he env.now _), ⟨_, rfl⟩, rfl, ?_⟩
  -- The condition is found under its identifier again, for no identifier has changed.
  have hids : ((s.changed env.now e.id k.writes).conditions.map (·.id)).Nodup := by
    simpa [Store.changed, Function.comp_def] using hd
  have hconfirmed : k.writes.onCondition env.now d = d.confirmed env.now by'.user :=
    Writes.onCondition_hit hmet env.now
  show List.find? _ _ = _
  rw [Store.conditions_enterAll, ← hconfirmed, ← Writes.onCondition_id k.writes env.now d]
  exact (find?_eq_some_iff_mem hids).mpr (List.mem_map_of_mem (List.mem_filter.mp hc).1)

/-- Where only the ledger can be out of order, a confirmation of an open condition comes to what its
plan comes to. -/
theorem result_confirm (henv : env.InOrder) (hk : Kept s n) (he : e ∈ s.escrows)
    (hc : c ∈ s.conditionsOf e.id) (hm : c.met = false) (by' : Caller) :
    let o := (Operation.confirm c.id).run env by' s s n
    let k := (planConfirmation c.id by' e.loaded (s.conditionsOf e.id)).conclude env.ask
    o.result = k.verdict.map (fun _ => .condition (c.confirmed env.now by'.user)) ∧
      o.asked = k.asked := by
  obtain ⟨hmem, hce⟩ := List.mem_filter.mp hc
  have hce : c.escrow = e.id := of_decide_eq_true hce
  have hfind : s.condition? c.id = some c := (find?_eq_some_iff_mem hk.conditionsDistinct).mpr hmem
  have hstored : s.stored? e.id = some e := (Store.stored?_eq_some_iff hk.distinct).mpr he
  have hread : s.escrow? e.id = some e.loaded :=
      Store.escrow?_of_stored? hstored
  have hfree : ¬(env.lease.any fun l => !l.acquired) = true := by rw [henv.lease]; decide
  have hopen : ¬c.met = true := by rw [hm]; decide
  simp only [Operation.run, confirmCondition, henv.database, hfind, if_neg hopen, hce, underLock,
    if_neg hfree]
  -- Past the look-up and the lock, the operation is its transaction.
  generalize hconcl : (planConfirmation c.id by' e.loaded (s.conditionsOf e.id)).conclude env.ask = k
  cases hv : k.verdict with
  | error f =>
    rw [carryOut_of_error hread hconcl hv]
    exact ⟨rfl, rfl⟩
  | ok _ =>
    obtain ⟨o, ho, ⟨x, hx⟩, hasked, hcond⟩ :=
      carryOut_confirmation (n := n) hk.conditionsDistinct hstored (hk.sound e he) hc hm hconcl hv
    rw [ho]
    refine ⟨?_, hasked⟩
    show Except.map _ o.result = _
    rw [hx]
    show Except.ok (Answer.condition ((o.store.condition? c.id).getD c)) = _
    rw [hcond]
    rfl

end Transactions

/-- The plan of a confirmation of an open condition of an active escrow, by somebody who holds a role
in it: it goes through without the ledger while another condition is open, and else it is up to the
ledger, which is asked to pay the seller. -/
theorem Reachable.conclude_confirmation {v : Service} (h : Reachable v) {e : Escrow}
    (he : e ∈ v.store.escrows) (hs : e.status = .active) {c : Condition}
    (hc : c ∈ v.store.conditionsOf e.id) (hm : c.met = false) {by' : Caller}
    (hp : ∃ r, ⟨by'.user, r⟩ ∈ e.parties) (ask : SettleRequest → LedgerAnswer) :
    let k := (planConfirmation c.id by' e.loaded (v.store.conditionsOf e.id)).conclude ask
    ((∃ d ∈ v.store.conditionsOf e.id, d.id ≠ c.id ∧ d.met = false) →
      k.verdict = .ok () ∧ k.asked = none) ∧
    ((∀ d ∈ v.store.conditionsOf e.id, d.id ≠ c.id → d.met = true) →
      ∃ b, ⟨b, .seller⟩ ∈ e.parties ∧ k.asked = some ⟨e.id, b⟩ ∧
        k.verdict = (ask ⟨e.id, b⟩).verdict e.id) := by
  have hsound : e.Sound := h.kept.sound e he
  have hreleased : e.released = false := by
    cases hr : e.released with
    | false => rfl
    | true =>
      rw [hsound.released_iff.mp hr] at hs
      cases hs
  have hpermit : permit e.loaded by'.user .confirmCondition = .ok () :=
    permit_confirmCondition (e := e.loaded) hs hp
  obtain ⟨hothers, hlast⟩ := planConfirmation_next
    (Store.find?_conditionsOf h.kept.conditionsDistinct hc) hm hpermit
  refine ⟨fun hd => ?_, fun hall => ?_⟩
  · unfold Plan.conclude
    rw [hothers hd]
    exact ⟨rfl, rfl⟩
  · obtain ⟨_, _, hl⟩ := h.life he
    obtain ⟨b, hb⟩ := hl.seller (List.ne_nil_of_mem hc)
    obtain ⟨paid, hnext⟩ := hlast hall hs hreleased b hb
    obtain ⟨hverdict, hasked⟩ := Plan.conclude_of_payOut hnext ask
    exact ⟨b, Escrow.mem_parties_of_recipient? hb, hasked, hverdict⟩

/-- A confirmation of an open condition of an active escrow, by somebody who holds a role in it, goes
through, whatever the time and the ledger. Only the last one asks the ledger, for the payment of
the seller, and it fails only as the ledger does. -/
theorem confirmation_stopped_by_ledger {v : Service} (h : Reachable v) {env : Surroundings}
    (henv : env.InOrder) {e : Escrow} (he : e ∈ v.store.escrows) (hs : e.status = .active)
    {c : Condition} (hc : c ∈ v.store.conditionsOf e.id) (hm : c.met = false) (by' : Caller)
    (hp : ∃ r, ⟨by'.user, r⟩ ∈ e.parties) :
    let o := (Operation.confirm c.id).run env by' v.store v.store v.counters
    let confirmed : Answer := .condition (c.confirmed env.now by'.user)
    ((∃ d ∈ v.store.conditionsOf e.id, d.id ≠ c.id ∧ d.met = false) →
      o.result = .ok confirmed ∧ o.asked = none) ∧
    ((∀ d ∈ v.store.conditionsOf e.id, d.id ≠ c.id → d.met = true) →
      ∃ b, ⟨b, .seller⟩ ∈ e.parties ∧ o.asked = some ⟨e.id, b⟩ ∧
        o.result = ((env.ask ⟨e.id, b⟩).verdict e.id).map fun _ => confirmed) := by
  obtain ⟨hresult, hasked⟩ := result_confirm henv h.kept he hc hm by'
  obtain ⟨hothers, hlast⟩ := h.conclude_confirmation he hs hc hm hp env.ask
  refine ⟨fun hd => ?_, fun hall => ?_⟩
  · obtain ⟨hverdict, hnone⟩ := hothers hd
    exact ⟨by rw [hresult, hverdict]; rfl, hasked.trans hnone⟩
  · obtain ⟨b, hb, hask, hverdict⟩ := hlast hall
    exact ⟨b, hb, hasked.trans hask, by rw [hresult, hverdict]⟩

/-- The sale with one condition left open. -/
def halfwayService : Service :=
  soldService.run [.operation ⟨"seller", none⟩ (.confirm (Identifier.condition 1))]

/-- Surroundings of the sale in which the ledger refuses to pay. -/
def refusingSurroundings : Surroundings :=
  { halfwayService.surroundings with
    ask := fun _ => ⟨.error (.escrow (.ledger (.settlement "out of funds" none))), []⟩ }

/-- The buyer may confirm the condition that is left, but the seller is not paid then. -/
theorem confirmation_stopped_by_ledger_halfwayService :
    ∃ e ∈ halfwayService.store.escrows, ∃ c ∈ halfwayService.store.conditionsOf e.id,
      c.met = false ∧
        ((Operation.confirm c.id).run refusingSurroundings ⟨"buyer", none⟩ halfwayService.store
          halfwayService.store halfwayService.counters).result =
            .error (.escrow (.settlementFailed e.id.text "out of funds")) := by
  obtain ⟨e, he, hs, hp, c, hc, hm, hlast⟩ : ∃ e ∈ halfwayService.store.escrows,
      e.status = .active ∧ ⟨"buyer", .buyer⟩ ∈ e.parties ∧
        ∃ c ∈ halfwayService.store.conditionsOf e.id, c.met = false ∧
          ∀ d ∈ halfwayService.store.conditionsOf e.id, d.id ≠ c.id → d.met = true := by
    decide +kernel
  have hreachable : Reachable halfwayService := soldService_reachable.run _
  have horder : refusingSurroundings.InOrder := ⟨by decide +kernel, by decide +kernel⟩
  obtain ⟨-, hrefused⟩ := confirmation_stopped_by_ledger hreachable horder he hs hc hm
    ⟨"buyer", none⟩ ⟨.buyer, hp⟩
  obtain ⟨b, -, -, hresult⟩ := hrefused hlast
  exact ⟨e, he, c, hc, hm, hresult⟩

end Custody

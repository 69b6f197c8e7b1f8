import Custody.Proofs.Run

/-!
# What a ledger is asked for

Whether or not a transaction goes through, the ledger is asked for one thing only: to pay the seller
of the escrow that the transaction is about, which is not completed yet.

> `Plan.AsksFor`: what holds of a plan that asks for nothing else.
> `Operation.asked_run`: no operation asks for anything else, whatever surrounds it.
-/

namespace Custody

/-- A plan that asks for the payment of an escrow to its seller, while it is not completed, or for
nothing. -/
def Plan.AsksFor (p : Plan) (e : Escrow) : Prop :=
  ∀ r paid, p.next = .payOut r paid →
    r.escrow = e.id ∧ e.recipient? = some r.beneficiary ∧ e.status ≠ .completed

namespace Plan

variable {p : Plan} {e : Escrow} {cs : List Condition} {by' : Caller}

theorem asksFor_refuse (f : Failure) : (refuse f).AsksFor e := fun _ _ h => nomatch h

theorem asksFor_ofWrites (x : Except Failure Writes) : (ofWrites x).AsksFor e := by
  cases x with
  | ok w => exact fun _ _ h => nomatch h
  | error f => exact asksFor_refuse f

theorem AsksFor.closing (h : p.AsksFor e) (entry : LogEntry) : (p.closing entry).AsksFor e := by
  obtain ⟨w, next⟩ := p
  cases next with
  | payOut r paid =>
    intro r' paid' hr
    cases hr
    exact h r paid rfl
  | finish => exact fun _ _ hr => nomatch hr
  | refuse f => exact fun _ _ hr => nomatch hr

/-- A step to the end is open only to an escrow that has not come there. -/
theorem asksFor_payout (basis : ReleaseBasis) : (planPayout e basis by').AsksFor e := by
  unfold planPayout
  cases hm : move e .completed with
  | error f => exact asksFor_refuse f
  | ok s =>
    cases hb : e.recipient? with
    | none => exact asksFor_refuse _
    | some b =>
      intro r paid hr
      cases hr
      refine ⟨rfl, hb, fun hc => ?_⟩
      have hstep := (move_eq_ok_iff.mp hm).1
      rw [hc] at hstep
      exact absurd hstep (by decide)

theorem asksFor_release (manual : Bool) : (planRelease manual by' e cs).AsksFor e := by
  unfold planRelease
  split
  next => exact fun _ _ h => nomatch h
  next =>
    split
    next => exact asksFor_refuse _
    next =>
      split
      next => exact asksFor_refuse _
      next => exact asksFor_payout _

theorem asksFor_resolution (resolution : Except UnknownWord Resolution) (note : Option String) :
    (planResolution resolution note by' e).AsksFor e := by
  unfold planResolution
  split
  next => exact asksFor_refuse _
  next =>
    split
    next => exact asksFor_refuse _
    next r =>
      refine AsksFor.closing ?_ _
      cases r with
      | release => exact asksFor_payout _
      | refund => exact asksFor_ofWrites _

theorem asksFor_confirmation (k : Identifier) : (planConfirmation k by' e cs).AsksFor e := by
  unfold planConfirmation
  split
  next => exact asksFor_refuse _
  next =>
    split
    next => exact fun _ _ h => nomatch h
    next =>
      split
      next => exact asksFor_refuse _
      next =>
        simp only
        split
        next => exact fun r paid h => asksFor_release false r paid h
        next => exact fun _ _ h => nomatch h

/-- The plan of a task asks for nothing else. -/
theorem asksFor_task (t : Task) (now : Moment) : (t.plan now by' e cs).AsksFor e := by
  cases t with
  | update r => exact asksFor_ofWrites _
  | activate x => exact asksFor_ofWrites _
  | dispute r => exact asksFor_ofWrites _
  | release manual => exact asksFor_release manual
  | cancel r => exact asksFor_ofWrites _
  | expire r n => exact asksFor_ofWrites _
  | resolve r note => exact asksFor_resolution r note

/-- What the ledger was asked is what the plan asked for. -/
theorem next_of_asked {ask : SettleRequest → LedgerAnswer} {r : SettleRequest}
    (h : (p.conclude ask).asked = some r) : ∃ paid, p.next = .payOut r paid := by
  unfold conclude at h
  cases hn : p.next with
  | finish => simp [hn] at h
  | refuse f => simp [hn] at h
  | payOut q paid =>
    have hq : some q = some r := by
      simp only [hn] at h
      split at h <;> exact h
    cases hq
    exact ⟨paid, rfl⟩

end Plan

section Asked

variable {env : Surroundings} {by' : Caller} {s : Store} {c : Counters} {r : SettleRequest}

/-- What the ledger is asked for, as the records tell it. -/
structure SettleRequest.Due (r : SettleRequest) (s : Store) (e : Escrow) : Prop where
  stored : s.stored? e.id = some e
  escrow : r.escrow = e.id
  seller : e.recipient? = some r.beneficiary
  unpaid : e.status ≠ .completed

theorem carryOut_asked {x : Identifier} {plan : Escrow → List Condition → Plan}
    (hplan : ∀ e cs, (plan e cs).AsksFor e) (h : (carryOut env x plan s c).asked = some r) :
    ∃ e, r.Due s e := by
  cases he : s.stored? x with
  | none =>
    rw [carryOut_of_none (Store.escrow?_of_not_stored? he)] at h
    cases h
  | some e =>
    have hid : e.id = x := by simpa using List.find?_some he
    subst hid
    have hread : s.escrow? e.id = some e.loaded := Store.escrow?_of_stored? he
    have hasked : ((plan e.loaded (s.conditionsOf e.id)).conclude env.ask).asked = some r :=
      (asked_carryOut hread).symm.trans h
    obtain ⟨paid, hnext⟩ := Plan.next_of_asked hasked
    obtain ⟨hescrow, hseller, hunpaid⟩ := hplan _ _ r paid hnext
    exact ⟨e, he, hescrow, hseller, hunpaid⟩

theorem underLock_asked {x : Identifier} {plan : Escrow → List Condition → Plan}
    (hplan : ∀ e cs, (plan e cs).AsksFor e)
    (h : (underLock env x (carryOut env x plan) s c).asked = some r) : ∃ e, r.Due s e := by
  unfold underLock at h
  split at h
  next => cases h
  next =>
    cases hd : env.database with
    | some f => simp [hd, Outcome.refused] at h
    | none =>
      simp only [hd] at h
      exact carryOut_asked hplan h

/-- An operation asks for nothing but the payment of an escrow, which is not completed, to its
seller. -/
theorem Operation.asked_run {op : Operation} {seen : Store}
    (h : (op.run env by' seen s c).asked = some r) : ∃ e, r.Due s e := by
  cases op with
  | create n =>
    have hnone : ((create n).run env by' seen s c).asked = none := createEscrow_asked env by' n s c
    rw [hnone] at h
    cases h
  | task x t => exact underLock_asked (fun e cs => Plan.asksFor_task t env.now) h
  | confirm k =>
    simp only [run, confirmCondition] at h
    cases hd : env.database with
    | some f => simp [hd, Outcome.refused] at h
    | none =>
      simp only [hd] at h
      split at h
      next => cases h
      next =>
        split at h
        next => cases h
        next => exact underLock_asked (fun e cs => Plan.asksFor_confirmation k) h

end Asked

end Custody

import Custody.Proofs.Chronicle

/-!
# Which operation records what

The log says what was done and not by which operation, and the time of an event is that of the
clock, not the one by which a deadline was judged. Both are found in the run: every event was
recorded by an operation of its kind.

> `Service.entered`: a new event is a draft of the plan that its operation carried out.
> `Service.type_mem_entries`: it is of one of the types that the operation records.
> `Service.deadline_lt_of_expired`: an expiry was judged by a deadline that was over.
-/

namespace Custody

/-! ## Types of events -/

/-- The types of the events that a task can record. -/
def Task.entries : Task → List EventType
  | .update _ => [.updated]
  | .activate _ => [.activated]
  | .dispute _ => [.disputed]
  | .release _ => [.completed]
  | .cancel _ => [.cancelled]
  | .expire .. => [.expired]
  | .resolve .. => [.completed, .cancelled]

/-- The types of the events that an operation can record. -/
def Operation.entries : Operation → List EventType
  | .create _ => [.created]
  | .task _ t => t.entries
  | .confirm _ => [.conditionMet, .completed]

/-- The time by which an operation judges: the stated one, or that of the clock. -/
def Operation.time (now : Moment) : Operation → Moment
  | .task _ (.expire _ t) => t.getD now
  | _ => now

/-! ## Plans -/

/-- A plan that enters events of some types only, before it pays and after. -/
def Plan.Enters (p : Plan) (types : List EventType) : Prop :=
  p.Each fun w => ∀ d ∈ w.drafts, d.type ∈ types

namespace Plan

variable {p : Plan} {types : List EventType} {by' : Caller} {e : Escrow} {cs : List Condition}
  {ask : SettleRequest → LedgerAnswer}

theorem additive_drafts (types : List EventType) :
    Writes.Additive fun w => ∀ d ∈ w.drafts, d.type ∈ types :=
  ⟨(fun _ hd => nomatch hd), fun ha hb d hd => (List.mem_append.mp hd).elim (ha d) (hb d)⟩

theorem Enters.conclude (h : p.Enters types) :
    ∀ d ∈ (p.conclude ask).writes.drafts, d.type ∈ types :=
  Each.conclude (additive_drafts types) h (fun _ _ hd => nomatch hd) (fun _ _ _ hd => nomatch hd)

theorem enters_refuse (f : Failure) : (refuse f).Enters types :=
  each_refuse (additive_drafts types) f

theorem enters_ofWrites {x : Except Failure Writes}
    (h : ∀ w, x = .ok w → ∀ d ∈ w.drafts, d.type ∈ types) : (ofWrites x).Enters types :=
  each_ofWrites (additive_drafts types) h

theorem enters_payout (basis : ReleaseBasis) (hc : .completed ∈ types) :
    (planPayout e basis by').Enters types := by
  unfold planPayout
  split
  next => exact enters_refuse _
  next =>
    split
    next => exact enters_refuse _
    next =>
      refine ⟨(fun _ hd => nomatch hd), fun r paid hn t d hd => ?_⟩
      cases hn
      rw [List.mem_singleton.mp hd]
      exact hc

theorem enters_release (manual : Bool) (hc : .completed ∈ types) :
    (planRelease manual by' e cs).Enters types := by
  unfold planRelease
  split
  next => exact ⟨(fun _ hd => nomatch hd), (fun _ _ hn => nomatch hn)⟩
  next =>
    split
    next => exact enters_refuse _
    next =>
      split
      next => exact enters_refuse _
      next => exact enters_payout _ hc

theorem enters_cancel {type : EventType} {notice : Notice} {data : EventData}
    {reason : Option String} {w : Writes}
    (h : cancelWrites e type notice data reason by' = .ok w) (ht : type ∈ types) :
    ∀ d ∈ w.drafts, d.type ∈ types := by
  rw [(cancelWrites_come h).drafts_eq]
  intro d hd
  rw [List.mem_singleton.mp hd]
  exact ht

theorem enters_confirmation (k : Identifier) :
    (planConfirmation k by' e cs).Enters (Operation.confirm k).entries := by
  unfold planConfirmation
  split
  next => exact enters_refuse _
  next =>
    split
    next => exact ⟨(fun _ hd => nomatch hd), (fun _ _ hn => nomatch hn)⟩
    next =>
      split
      next => exact enters_refuse _
      next =>
        simp only
        split
        next =>
          refine Each.after (additive_drafts _) (enters_release _ (by simp [Operation.entries]))
            fun d hd => ?_
          rw [List.mem_singleton.mp hd]
          simp [Operation.entries]
        next =>
          refine ⟨fun d hd => ?_, (fun _ _ hn => nomatch hn)⟩
          rw [List.mem_singleton.mp hd]
          simp [Operation.entries]

/-- The plan of a task enters events of its types. -/
theorem enters_task (t : Task) (now : Moment) : (t.plan now by' e cs).Enters t.entries := by
  have single : ∀ {w : Writes} {a : EventDraft}, w.drafts = [a] → a.type ∈ t.entries →
      ∀ d ∈ w.drafts, d.type ∈ t.entries := by
    intro w a hw ha d hd
    rw [hw] at hd
    rw [List.mem_singleton.mp hd]
    exact ha
  -- A task enters the one event of its type, and a release or a refund those of its own lemma.
  cases t with
  | update r =>
    refine enters_ofWrites fun w hw => ?_
    unfold planUpdate at hw
    obtain ⟨_, -, hw⟩ := Except.bind_eq_ok_iff.mp hw
    simp only at hw
    split at hw
    next =>
      cases hw
      exact fun d hd => nomatch hd
    next =>
      cases hw
      exact single rfl (List.mem_singleton.mpr rfl)
  | activate x =>
    refine enters_ofWrites fun w hw => ?_
    obtain ⟨_, -, hw⟩ := Except.bind_eq_ok_iff.mp hw
    obtain ⟨_, -, hw⟩ := Except.bind_eq_ok_iff.mp hw
    cases hw
    exact single rfl (List.mem_singleton.mpr rfl)
  | dispute reason =>
    refine enters_ofWrites fun w hw => ?_
    obtain ⟨_, -, hw⟩ := Except.bind_eq_ok_iff.mp hw
    obtain ⟨_, -, hw⟩ := Except.bind_eq_ok_iff.mp hw
    cases hw
    exact single rfl (List.mem_singleton.mpr rfl)
  | release manual => exact enters_release manual (by simp [Task.entries])
  | cancel reason =>
    refine enters_ofWrites fun w hw => ?_
    obtain ⟨_, -, hw⟩ := Except.bind_eq_ok_iff.mp hw
    exact enters_cancel hw (by simp [Task.entries])
  | expire reason t =>
    refine enters_ofWrites fun w hw => ?_
    obtain ⟨_, -, hw⟩ := Except.bind_eq_ok_iff.mp hw
    obtain ⟨d, -, hw⟩ := Except.bind_eq_ok_iff.mp hw
    cases d with
    | none => cases hw
    | some d =>
      obtain ⟨_, -, hw⟩ := Except.bind_eq_ok_iff.mp hw
      split at hw
      next => exact enters_cancel hw (by simp [Task.entries])
      next => cases hw
  | resolve resolution note =>
    show (planResolution resolution note by' e).Enters _
    unfold planResolution
    split
    next => exact enters_refuse _
    next =>
      split
      next => exact enters_refuse _
      next r =>
        refine Each.closing (additive_drafts _) ?_ (fun _ hd => nomatch hd)
        cases r with
        | release => exact enters_payout _ (by simp [Task.entries])
        | refund => exact enters_ofWrites fun w hw => enters_cancel hw (by simp [Task.entries])

end Plan

/-! ## Operations -/

section Transactions

variable {env : Surroundings} {x : Identifier} {plan : Escrow → List Condition → Plan} {s : Store}
  {c : Counters} {b : Event}

/-- A new event of a transaction is a draft of the plan that it carried out. -/
theorem carryOut_entered (hb : b ∈ (carryOut env x plan s c).store.events) :
    b ∈ s.events ∨ ∃ e, s.escrow? x = some e ∧
      ((plan e (s.conditionsOf x)).conclude env.ask).verdict = .ok () ∧
      ∃ d ∈ ((plan e (s.conditionsOf x)).conclude env.ask).writes.drafts, ∃ i j,
        b = d.entered env.now x i j := by
  cases hr : (carryOut env x plan s c).result with
  | error f =>
    rw [carryOut_store_of_error hr] at hb
    exact .inl hb
  | ok e' =>
    obtain ⟨e, he, hv, hs⟩ := carryOut_eq_ok hr
    rw [hs, Store.events_enterAll_eq] at hb
    refine (List.mem_append.mp hb).imp_right fun hb => ?_
    exact ⟨e, he, hv, mem_enterDrafts hb⟩

/-- A lock enters nothing. -/
theorem underLock_entered {work : Store → Counters → Outcome Escrow}
    (hb : b ∈ (underLock env x work s c).store.events) :
    b ∈ s.events ∨ b ∈ (work s c).store.events := by
  unfold underLock at hb
  split at hb
  next => exact .inl hb
  next =>
    cases hd : env.database with
    | some f =>
      simp only [hd] at hb
      exact .inl hb
    | none =>
      simp only [hd] at hb
      exact .inr hb

end Transactions

namespace Service

variable {v : Service} {by' : Caller} {b : Event}

/-- A new event of a task is a draft of its plan for the escrow that it is about. -/
theorem entered {x : Identifier} {t : Task}
    (hb : b ∈ (v.perform by' (.task x t)).2.1.store.events) (hnew : b ∉ v.store.events) :
    ∃ e, v.store.escrow? x = some e ∧
      ((t.plan v.now by' e (v.store.conditionsOf x)).conclude v.ask).verdict = .ok () ∧
      ∃ d ∈ ((t.plan v.now by' e (v.store.conditionsOf x)).conclude v.ask).writes.drafts, ∃ i j,
        b = d.entered v.now x i j := by
  have hwork := (underLock_entered hb).resolve_left hnew
  exact (carryOut_entered hwork).resolve_left hnew

/-- A new event is of a type that its operation records. -/
theorem type_mem_entries {op : Operation} (hb : b ∈ (v.perform by' op).2.1.store.events)
    (hnew : b ∉ v.store.events) : b.type ∈ op.entries := by
  cases op with
  | create n =>
    cases hr : (createEscrow v.surroundings by' n v.store v.counters).result with
    | error f =>
      have hs := createEscrow_store_of_error hr
      exact absurd (hs ▸ hb : b ∈ v.store.events) hnew
    | ok e =>
      obtain ⟨ps, t, asset, cs, -, -, -, -, hs⟩ := createEscrow_ok hr
      have hb : b ∈ (createEscrow v.surroundings by' n v.store v.counters).store.events := hb
      rw [hs, Store.events_enter] at hb
      have hb := (List.mem_append.mp hb).resolve_left hnew
      rw [List.mem_singleton.mp hb]
      exact List.mem_singleton.mpr rfl
  | task x t =>
    obtain ⟨e, -, -, d, hd, i, j, rfl⟩ := entered hb hnew
    exact (Plan.enters_task t v.now).conclude d hd
  | confirm k =>
    simp only [perform, performSeeing, Operation.run, confirmCondition] at hb
    split at hb
    next => exact absurd hb hnew
    next =>
      split at hb
      next => exact absurd hb hnew
      next =>
        split at hb
        next => exact absurd hb hnew
        next =>
          have hwork := (underLock_entered hb).resolve_left hnew
          obtain ⟨e, -, -, d, hd, i, j, rfl⟩ := (carryOut_entered hwork).resolve_left hnew
          exact (Plan.enters_confirmation k).conclude d hd

/-- An expiry is recorded with a deadline that was over by the time of its operation. -/
theorem deadline_lt_of_expired {x : Identifier} {reason : Option String} {t : Option Moment}
    (hb : b ∈ (v.perform by' (.task x (.expire reason t))).2.1.store.events)
    (hnew : b ∉ v.store.events) :
    ∃ r d s n, b.data = .expired r d s ∧ normalizeMoment (some (t.getD v.now)) = .ok (some n) ∧
      d.instant < n.instant := by
  obtain ⟨e, -, hv, d, hd, i, j, rfl⟩ := entered hb hnew
  obtain ⟨w, hw, hk⟩ := Plan.conclude_ofWrites hv
  have hd : d ∈ w.drafts := (congrArg (fun k => k.writes.drafts) hk) ▸ hd
  unfold planExpiry at hw
  obtain ⟨_, -, hw⟩ := Except.bind_eq_ok_iff.mp hw
  obtain ⟨deadline, -, hw⟩ := Except.bind_eq_ok_iff.mp hw
  cases deadline with
  | none => cases hw
  | some m =>
    obtain ⟨n, hn, hw⟩ := Except.bind_eq_ok_iff.mp hw
    split at hw
    next hlt =>
      cases n with
      | none => simp at hlt
      | some n =>
        rw [(cancelWrites_come hw).drafts_eq] at hd
        rw [List.mem_singleton.mp hd]
        exact ⟨_, m, _, n, rfl, hn, by simpa using hlt⟩
    next => cases hw

end Service

end Custody

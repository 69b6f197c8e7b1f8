import Custody.Proofs.Attempt
import Custody.Proofs.Completion
import Custody.Proofs.Outsider
import Custody.Proofs.Progress
import Custody.Proofs.Question

/-!
# How a release is decided

Whether an escrow is released is ruled from the records alone, by the first of a few reasons that
applies; only then is the ledger asked. The policy and the lifecycle are consulted on the way, but on
sound records they have no say: the creator always holds the role that may release, and an active escrow
may always be completed.

> `permitRelease_of_active`: what the policy says of an active escrow is what the ruling says.
> `planRelease_of_ruling`: so a release goes by the ruling.
> `release_decided`: what a release comes to, and what every later one comes to.
-/

namespace Custody

/-! ## Rulings -/

/-- The ruling on a release: it is refused, the escrow was released before, or its seller is due to be
paid. -/
inductive Ruling where
  | refused (f : EscrowError)
  | before (e : Escrow)
  | due (e : Escrow) (seller : String)

/-- The ruling on the release of an escrow with these conditions. -/
def Escrow.ruling (e : Escrow) (cs : List Condition) (user : String) (manual : Bool) : Ruling :=
  if e.status = .completed then .before e
  else if e.status ≠ .active then .refused (.invalidState (.notActive e.status))
  else if manual = true ∧ user ≠ e.creator then
    .refused (.forbidden user "MANUAL_RELEASE" (some "Only the escrow creator can release funds"))
  else if manual = false ∧ openConditions cs ≠ [] then
    .refused (.invalidState (.unmet (openConditions cs).length e.status))
  else match e.recipient? with
    | none => .refused (.invalidState (.noSeller e.status))
    | some b => .due e b

/-- The ruling on a release by the records. -/
def Store.ruling (s : Store) (x : Identifier) (user : String) (manual : Bool) : Ruling :=
  match s.escrow? x with
  | none => .refused (.escrowNotFound x.text)
  | some e => e.ruling (s.conditionsOf x) user manual

/-! ## Plans -/

section Plans

variable {e : Escrow} (cs : List Condition) (by' : Caller) (manual : Bool)

/-- The policy lets the creator release an active escrow, who always is its buyer, and the system
always. -/
theorem permitRelease_of_active (hs : e.status = .active) (hb : ⟨e.creator, .buyer⟩ ∈ e.parties) :
    permitRelease e cs manual by' =
      if manual = true ∧ by'.user ≠ e.creator then
        .error (.escrow (.forbidden by'.user "MANUAL_RELEASE"
          (some "Only the escrow creator can release funds")))
      else if manual = false ∧ openConditions cs ≠ [] then
        .error (.escrow (.invalidState (.unmet (openConditions cs).length e.status)))
      else .ok () := by
  unfold permitRelease
  cases manual with
  | true =>
    by_cases hc : e.creator = by'.user
    · have hp : permit e by'.user .manualRelease = .ok () := by
        rw [permit_eq_ok_iff, hs, ← hc]
        exact .inr ⟨_, rfl, .buyer, List.mem_singleton_self _, hb⟩
      simp [hc, hp]
    · simp [hc, Ne.symm hc, word, Worded.word]
  | false =>
    have hp : permit e systemActor .autoRelease = .ok () := by
      rw [permit_eq_ok_iff, hs]
      exact .inl rfl
    by_cases ho : openConditions cs = []
    · simp [hp, ho, bind, Except.bind, pure, Except.pure]
    · simp [hp, ho, bind, Except.bind, throw, throwThe, MonadExceptOf.throw]

/-- A release goes by the ruling. -/
theorem planRelease_of_ruling (hr : e.released = true ↔ e.status = .completed)
    (hb : ⟨e.creator, .buyer⟩ ∈ e.parties) :
    match e.ruling cs by'.user manual with
    | .refused f => planRelease manual by' e cs = .refuse (.escrow f)
    | .before d => d = e ∧ e.status = .completed ∧
        ∃ log, planRelease manual by' e cs = ⟨{ log := log }, .finish⟩
    | .due d b => d = e ∧ e.status = .active ∧ e.recipient? = some b ∧
        planRelease manual by' e cs = planPayout e (.request manual) by' := by
  unfold Escrow.ruling
  -- The ruling asks in the order in which the plan does.
  by_cases hc : e.status = .completed
  · rw [if_pos hc]
    exact ⟨rfl, hc, _, by rw [planRelease, if_pos (.inl hc)]⟩
  have hn : ¬(e.status = .completed ∨ e.released = true) := fun h => hc (h.elim id hr.mp)
  rw [if_neg hc]
  by_cases ha : e.status = .active
  · have hpermit := permitRelease_of_active cs by' manual ha hb
    rw [if_neg (not_not.mpr ha)]
    unfold planRelease
    rw [if_neg hn, if_neg (not_not.mpr ha), hpermit]
    by_cases hforbidden : manual = true ∧ by'.user ≠ e.creator
    · simp only [if_pos hforbidden]
    by_cases hunmet : manual = false ∧ openConditions cs ≠ []
    · simp only [if_neg hforbidden, if_pos hunmet]
    simp only [if_neg hforbidden, if_neg hunmet]
    cases hs : e.recipient? with
    | none => simp [planPayout, move, advance, Status.successors, ha, hs]
    | some b => exact ⟨rfl, ha, rfl, trivial⟩
  · rw [if_pos ha]
    show planRelease manual by' e cs = _
    rw [planRelease, if_neg hn, if_pos ha]

end Plans

/-! ## Transactions -/

/-- Where nothing but the ledger can be out of order, a task comes to what its transaction comes to. -/
theorem Records.outcome_task {env : Surroundings} (henv : env.InOrder) (r : Records)
    (by' : Caller) (x : Identifier) (t : Task) :
    let o := r.outcome ⟨env, by', .task x t⟩
    let o' := carryOut env x (fun e cs => t.plan env.now by' e cs) r.store r.counters
    o.result = o'.result.map .escrow ∧ o.store = o'.store ∧ o.asked = o'.asked ∧
      o.announced = o'.announced := by
  have hfree : ¬(env.lease.any fun l => !l.acquired) = true := by rw [henv.lease]; decide
  simp only [outcome, Operation.run, underLock, if_neg hfree, henv.database]
  exact ⟨rfl, rfl, rfl, rfl⟩

/-- So does a release. -/
theorem Records.outcome_release {env : Surroundings} (henv : env.InOrder) (r : Records)
    (by' : Caller) (x : Identifier) (manual : Bool) :
    let o := r.outcome ⟨env, by', .task x (.release manual)⟩
    let o' := carryOut env x (planRelease manual by') r.store r.counters
    o.result = o'.result.map .escrow ∧ o.store = o'.store ∧ o.asked = o'.asked ∧
      o.announced = o'.announced :=
  r.outcome_task henv by' x (.release manual)

/-- Elsewhere a task fails before it has begun. -/
theorem Operation.run_task_of_not_inOrder {env : Surroundings} (henv : ¬env.InOrder)
    (x : Identifier) (t : Task) (by' : Caller) (seen s : Store) (c : Counters) :
    let o := (Operation.task x t).run env by' seen s c
    (∃ f, o.result = .error f) ∧ o.asked = none ∧ o.store = s ∧ o.announced = none := by
  simp only [Operation.run, underLock]
  split
  next => exact ⟨⟨_, rfl⟩, rfl, rfl, rfl⟩
  next hfree =>
    cases hd : env.database with
    | some f => exact ⟨⟨_, rfl⟩, rfl, rfl, rfl⟩
    | none => exact absurd ⟨hd, by simpa using hfree⟩ henv

/-- The records stay as they are, and nobody is notified. -/
structure Outcome.Idle (o : Outcome Answer) (r : Records) : Prop where
  store : o.store = r.store
  announced : o.announced = none

/-- What a task leaves whose transaction writes the record of an escrow anew, enters one event and
notifies once: nothing else is written. -/
structure Outcome.Recorded (o : Outcome Answer) (r : Records) (now : Moment) (e : Escrow)
    (draft : EventDraft) (note : Announcement) : Prop where
  result : o.result = .ok (.escrow e)
  others : ∀ y, y ≠ e.id → o.store.stored? y = r.store.stored? y
  conditions : o.store.conditions = r.store.conditions
  events : o.store.events = r.store.events ++
    [{ id := Identifier.event (r.counters.events + 1), escrow := e.id
       sequence := r.store.nextSequence e.id, type := draft.type, actor := draft.actor
       oldStatus := draft.oldStatus.map word, newStatus := draft.newStatus.map word
       data := draft.data, address := draft.address, recordedAt := now }]
  announced : o.announced = some (note.about e)

/-- What goes through with one patch, one event and one notification is written down so. The record is
patched as it is stored, the answer as it was read. -/
theorem Records.recorded_of_come {r : Records} {env : Surroundings} {by' : Caller} {t : Task}
    {k : Conclusion} {p : Patch} {draft : EventDraft} {note : Announcement}
    (hk : Kept r.store r.counters) (henv : env.InOrder) {d : Escrow}
    (hd : r.store.stored? d.id = some d)
    (hconclude : (t.plan env.now by' d.loaded (r.store.conditionsOf d.id)).conclude env.ask = k)
    (hverdict : k.verdict = .ok ()) (hw : k.writes.Come none (some p) [draft] (some note)) :
    let o := r.outcome ⟨env, by', .task d.id t⟩
    o.Recorded r env.now (p.applyAt env.now d.loaded) draft note ∧
      o.store.stored? d.id = some (p.applyAt env.now d) := by
  intro o
  have hread : r.store.escrow? d.id = some d.loaded := Store.escrow?_of_stored? hd
  obtain ⟨paid, hdeed, -⟩ := Task.isDeed (hconclude ▸ hverdict)
  rw [hconclude] at hdeed
  have happly := hdeed.apply_eq_ok (hk.sound d (List.mem_of_find?_eq_some hd)) hd env.now
    (r.counters.events + 1)
  -- The one patch is all that the writes do to a record, the stored one or the one that is read.
  have hview : ∀ a : Escrow, k.writes.view env.now a = p.applyAt env.now a := by
    intro a
    rw [Writes.view, hw.patch_eq]
  have hid : (p.applyAt env.now d.loaded).id = d.id := by
    rw [← hview]
    exact Writes.view_id ..
  obtain ⟨hresult, hstore, -, hannounced⟩ := r.outcome_task henv by' d.id t
  rw [carryOut_of_ok hread hconclude hverdict happly] at hresult hstore hannounced
  refine ⟨?_, ?stored⟩
  case stored =>
    show (r.outcome _).store.stored? d.id = _
    rw [hstore, Store.stored?_changed hd, hview]
  constructor
  case result =>
    refine hresult.trans ?_
    rw [hview]
    rfl
  case others =>
    intro y hy
    rw [hstore]
    exact Store.stored?_changed_of_ne _ (hid ▸ hy) ..
  case conditions =>
    rw [hstore]
    show (Store.enterAll _ _ _ _ _).conditions = _
    rw [Store.conditions_enterAll]
    exact Writes.map_onCondition_of_none hw.met_eq ..
  case events =>
    rw [hstore, hw.drafts_eq, hid]
    rfl
  case announced =>
    refine hannounced.trans ?_
    rw [hw.announcement_eq, hview]
    rfl

/-- The record of an escrow once it is released in a transaction. -/
def Escrow.paid (e : Escrow) (transaction : String) (now : Moment) : Escrow :=
  { e with
    status := .completed, released := true, releaseTransaction := some transaction, updatedAt := now }

/-- What the release of an active escrow leaves that the ledger has carried out in a transaction: the
payment of the seller is written down, and the record is read completed from then on. -/
structure Outcome.Released (o : Outcome Answer) (r : Records) (env : Surroundings) (by' : Caller)
    (x : Identifier) (manual : Bool) (e : Escrow) (seller transaction : String) : Prop
    extends o.Recorded r env.now (e.paid transaction env.now)
      (paymentDraft by' e (.request manual) seller transaction) (paymentNote seller transaction) where
  id : e.id = x
  active : e.status = .active
  record : o.store.escrow? x = some (e.paid transaction env.now)

section Payments

/-- An active escrow is paid out when the ledger does it. -/
theorem conclude_payout {e : Escrow} (basis : ReleaseBasis) (by' : Caller) {b t : String}
    {ask : SettleRequest → LedgerAnswer} (hs : e.status = .active) (hb : e.recipient? = some b)
    (ht : (ask ⟨e.id, b⟩).result = .ok t) :
    ((planPayout e basis by').conclude ask).verdict = .ok () ∧
      ((planPayout e basis by').conclude ask).writes.Come none (some (.completion t))
        [paymentDraft by' e basis b t] (some (paymentNote b t)) := by
  have hverdict : ((planPayout e basis by').conclude ask).verdict = .ok () := by
    rw [(Plan.conclude_of_payOut (planPayout_of_active hs hb) ask).1, LedgerAnswer.verdict, ht]
  obtain ⟨b', t', hb', ht', -, hw⟩ := planPayout_paid hverdict
  obtain rfl : b' = b := Option.some.inj (hb'.symm.trans hb)
  obtain rfl : t' = t := Except.ok.inj (ht'.symm.trans ht)
  exact ⟨hverdict, hw⟩

variable {r : Records} {env : Surroundings} {by' : Caller} {manual : Bool}

/-- A payment that the ledger makes is written down. -/
theorem released_of_paid (hk : Kept r.store r.counters) (henv : env.InOrder) {d : Escrow}
    (hd : r.store.stored? d.id = some d) (hs : d.status = .active) {b t : String}
    (hb : d.recipient? = some b)
    (hplan : planRelease manual by' d.loaded (r.store.conditionsOf d.id) =
      planPayout d.loaded (.request manual) by')
    (ht : (env.ask ⟨d.id, b⟩).result = .ok t) :
    (r.outcome ⟨env, by', .task d.id (.release manual)⟩).Released r env by' d.id manual
      d.loaded b t := by
  obtain ⟨hverdict, hw⟩ := conclude_payout (.request manual) by'
    (show d.loaded.status = .active from hs) hb ht
  rw [← hplan] at hverdict hw
  obtain ⟨hrecorded, hstored⟩ := Records.recorded_of_come (t := .release manual) hk henv hd rfl
    hverdict hw
  refine ⟨hrecorded, rfl, hs, ?_⟩
  rw [Store.escrow?, hstored]
  rfl

/-- A release that is due asks the ledger, and ends as the ledger answers. -/
theorem release_of_due (hk : Kept r.store r.counters) (henv : env.InOrder) {d : Escrow}
    (hd : r.store.stored? d.id = some d) (hs : d.status = .active) {b : String}
    (hb : d.recipient? = some b)
    (hplan : planRelease manual by' d.loaded (r.store.conditionsOf d.id) =
      planPayout d.loaded (.request manual) by') :
    let o := r.outcome ⟨env, by', .task d.id (.release manual)⟩
    o.asked = some ⟨d.id, b⟩ ∧
      match (env.ask ⟨d.id, b⟩).result with
      | .error (.escrow (.ledger f)) =>
        o.result = .error (.escrow (.settlementFailed d.id.text f.message)) ∧ o.Idle r
      | .error f => o.result = .error f ∧ o.Idle r
      | .ok t => o.Released r env by' d.id manual d.loaded b t := by
  intro o
  obtain ⟨hresult, hstore, hasked, hannounced⟩ := r.outcome_release henv by' d.id manual
  have hread : r.store.escrow? d.id = some d.loaded := Store.escrow?_of_stored? hd
  have hnext : (planRelease manual by' d.loaded (r.store.conditionsOf d.id)).next =
      .payOut ⟨d.id, b⟩ (paidWrites d.loaded (.request manual) by' b) := by
    rw [hplan]
    exact planPayout_of_active (e := d.loaded) hs hb
  obtain ⟨hverdict, hask⟩ := Plan.conclude_of_payOut hnext env.ask
  refine ⟨hasked.trans ((asked_carryOut hread).trans hask), ?_⟩
  -- A refusal of the ledger is the end of the plan; a payment is written down.
  have refused : ∀ f, LedgerAnswer.verdict (env.ask ⟨d.id, b⟩) d.id = .error f →
      o.result = .error f ∧ o.Idle r := by
    intro f hf
    rw [carryOut_of_error hread rfl (hverdict.trans hf)] at hresult hstore hannounced
    exact ⟨hresult, hstore, hannounced⟩
  unfold LedgerAnswer.verdict at refused
  split
  next f hf =>
    rw [hf] at refused
    exact refused _ rfl
  next f hother hf =>
    refine refused f ?_
    rw [hf]
    split
    next h => cases h
    next h => exact (hother _ (Except.error.inj h)).elim
    next h => rw [Except.error.inj h]
  next t ht => exact released_of_paid hk henv hd hs hb hplan ht

end Payments

/-! ## Decisions -/

section Decisions

variable {r : Records} {env : Surroundings}

/-- Where only the ledger can be out of order, a release comes to what the ruling says. -/
theorem Records.release_of_ruling (hk : Kept r.store r.counters) (henv : env.InOrder) (by' : Caller)
    (x : Identifier) (manual : Bool) :
    let o := r.outcome ⟨env, by', .task x (.release manual)⟩
    match r.store.ruling x by'.user manual with
    | .refused f => o.result = .error (.escrow f) ∧ o.asked = none ∧ o.Idle r
    | .before e => o.result = .ok (.escrow e) ∧ o.asked = none ∧ o.Idle r ∧
        r.store.escrow? x = some e ∧ e.status = .completed
    | .due e b => o.asked = some ⟨x, b⟩ ∧ e.recipient? = some b ∧
        match (env.ask ⟨x, b⟩).result with
        | .error (.escrow (.ledger f)) =>
          o.result = .error (.escrow (.settlementFailed x.text f.message)) ∧ o.Idle r
        | .error f => o.result = .error f ∧ o.Idle r
        | .ok t => o.Released r env by' x manual e b t := by
  intro o
  obtain ⟨hresult, hstore, hasked, hannounced⟩ := r.outcome_release henv by' x manual
  unfold Store.ruling
  cases he : r.store.stored? x with
  | none =>
    have hread : r.store.escrow? x = none := Store.escrow?_of_not_stored? he
    rw [carryOut_of_none hread] at hresult hstore hasked hannounced
    rw [hread]
    exact ⟨hresult, hasked, hstore, hannounced⟩
  | some d =>
    have hid : d.id = x := by simpa using List.find?_some he
    subst hid
    have hread : r.store.escrow? d.id = some d.loaded :=
      Store.escrow?_of_stored? he
    have hsound : d.Sound := hk.sound d (List.mem_of_find?_eq_some he)
    have hplan := planRelease_of_ruling (r.store.conditionsOf d.id) by' manual
      (show d.loaded.released = true ↔ d.loaded.status = .completed from hsound.released_iff)
      hsound.buyer
    rw [hread]
    show match d.loaded.ruling (r.store.conditionsOf d.id) by'.user manual with
      | .refused f => _
      | .before e => _
      | .due e b => _
    -- The plan goes by the ruling, so that the cases of the one are those of the other.
    generalize d.loaded.ruling (r.store.conditionsOf d.id) by'.user manual = ruling at hplan
    cases ruling with
    | refused f =>
      have hconclude : (planRelease manual by' d.loaded (r.store.conditionsOf d.id)).conclude env.ask =
          ⟨Writes.nothing, .error (.escrow f), none⟩ := by
        rw [hplan]
        rfl
      rw [carryOut_of_error hread hconclude rfl] at hresult hstore hasked hannounced
      exact ⟨hresult, hasked, hstore, hannounced⟩
    | before e =>
      obtain ⟨rfl, hc, log, hplan⟩ := hplan
      rw [carryOut_of_finish hread hplan] at hresult hstore hasked hannounced
      exact ⟨hresult, hasked, ⟨hstore, hannounced⟩, rfl, hc⟩
    | due e b =>
      obtain ⟨rfl, hs, hb, hplan⟩ := hplan
      obtain ⟨hasked, hanswer⟩ := release_of_due hk henv he hs hb hplan
      exact ⟨hasked, hb, hanswer⟩

/-- A release that goes through leaves the record completed that it has answered with. -/
theorem Records.completed_of_released (hk : Kept r.store r.counters) {by' : Caller} {x : Identifier}
    {manual : Bool} {e : Escrow}
    (h : (r.outcome ⟨env, by', .task x (.release manual)⟩).result = .ok (.escrow e)) :
    (r.after ⟨env, by', .task x (.release manual)⟩).store.escrow? x = some e ∧
      e.status = .completed := by
  -- Nothing goes through where something else than the ledger is out of order.
  by_cases henv : env.InOrder
  · have hruling := release_of_ruling hk henv by' x manual
    generalize r.store.ruling x by'.user manual = ruling at hruling
    cases ruling with
    | refused f =>
      obtain ⟨hresult, -⟩ := hruling
      rw [h] at hresult
      cases hresult
    | before d =>
      obtain ⟨hresult, -, hidle, hd, hc⟩ := hruling
      rw [h] at hresult
      cases hresult
      refine ⟨?_, hc⟩
      show (r.outcome _).store.escrow? x = some e
      rw [hidle.store, hd]
    | due d b =>
      obtain ⟨-, -, hruling⟩ := hruling
      split at hruling
      next =>
        rw [h] at hruling
        cases hruling.1
      next =>
        rw [h] at hruling
        cases hruling.1
      next t ht =>
        have hresult := h.symm.trans hruling.result
        cases hresult
        exact ⟨hruling.record, rfl⟩
  · obtain ⟨⟨f, hf⟩, -⟩ := Operation.run_task_of_not_inOrder henv x (.release manual) by' r.store
      r.store r.counters
    have hf : (r.outcome ⟨env, by', .task x (.release manual)⟩).result = .error f := hf
    rw [h] at hf
    cases hf

end Decisions

/-- After any attempts on the records, whatever surrounded them: where nothing but the ledger can be out
of order, a release ends as the ruling says. It is refused without asking the ledger; it answers with
the record as it is where that was completed before; or the ledger is asked, for the payment of the
seller and for nothing else. Where the ledger pays, the record is completed in its transaction; what the
ledger refuses is a failed settlement, and whatever else stops it is passed on; neither leaves a trace in
the records. Once a release has gone through, every later one answers with the same record, and so with
the same transaction, whoever asks for it and whatever has been attempted in between. -/
theorem release_decided (as : List Attempt) (env : Surroundings) (by' : Caller) (x : Identifier)
    (manual : Bool) :
    let r := Records.start.run as
    let release : Attempt := ⟨env, by', .task x (.release manual)⟩
    let o := r.outcome release
    (env.InOrder → match r.store.ruling x by'.user manual with
      | .refused f => o.result = .error (.escrow f) ∧ o.asked = none ∧ o.Idle r
      | .before e => o.result = .ok (.escrow e) ∧ o.asked = none ∧ o.Idle r
      | .due e b => o.asked = some ⟨x, b⟩ ∧ ⟨b, .seller⟩ ∈ e.parties ∧
        match (env.ask ⟨x, b⟩).result with
        | .error (.escrow (.ledger f)) =>
          o.result = .error (.escrow (.settlementFailed x.text f.message)) ∧ o.Idle r
        | .error f => o.result = .error f ∧ o.Idle r
        | .ok t => o.Released r env by' x manual e b t) ∧
    (¬env.InOrder → (∃ f, o.result = .error f) ∧ o.asked = none ∧ o.Idle r) ∧
    (∀ ask, (∀ q ∈ o.asked, ask q = env.ask q) →
      r.outcome { release with env := { env with ask := ask } } = o) ∧
    ∀ e, o.result = .ok (.escrow e) → (∃ t, e.releaseTransaction = some t) ∧
      ∀ later env' by'' manual', env'.InOrder →
        (((r.after release).run later).outcome ⟨env', by'', .task x (.release manual')⟩).result =
          .ok (.escrow e) := by
  intro r release o
  have hk : Kept r.store r.counters := Records.kept_run as
  refine ⟨fun henv => ?_, fun henv => ?_, fun ask hask => ?_, fun e he => ?_⟩
  · have hruling := Records.release_of_ruling hk henv by' x manual
    generalize r.store.ruling x by'.user manual = ruling at hruling
    cases ruling with
    | refused f => exact hruling
    | before e => exact ⟨hruling.1, hruling.2.1, hruling.2.2.1⟩
    | due e b =>
      exact ⟨hruling.1, Escrow.mem_parties_of_recipient? hruling.2.1, hruling.2.2⟩
  · obtain ⟨hf, hasked, hstore, hannounced⟩ := Operation.run_task_of_not_inOrder henv x
      (.release manual) by' r.store r.store r.counters
    exact ⟨hf, hasked, hstore, hannounced⟩
  · obtain ⟨question, h⟩ := Operation.oneQuestion env by' r.store r.counters release.op r.store
    have hasked : o.asked = question := h.asked env.ask
    rw [hasked] at hask
    exact h.heard ask env.ask hask
  · obtain ⟨hread, hc⟩ := Records.completed_of_released hk he
    obtain ⟨d, hd, rfl⟩ := Option.map_eq_some_iff.mp hread
    have hc : d.status = .completed := hc
    have hmem : d ∈ (r.after release).store.escrows := List.mem_of_find?_eq_some hd
    have hk' := Records.kept_after hk release
    refine ⟨?_, fun later env' by'' manual' henv' => ?_⟩
    · exact Option.isSome_iff_exists.mp ((hk'.sound d hmem).settled_iff.mpr hc)
    · obtain ⟨hkept, hlater⟩ := Records.mem_run_of_isTerminal hk' hmem (by rw [hc]; rfl) later
      have hid : d.id = x := by simpa using List.find?_some hd
      have hruling : ((r.after release).run later).store.ruling x by''.user manual' =
          .before d.loaded := by
        rw [Store.ruling, Store.escrow?, ← hid, (Store.stored?_eq_some_iff hkept.distinct).mpr hlater]
        exact if_pos hc
      have hagain := Records.release_of_ruling hkept henv' by'' x manual'
      rw [hruling] at hagain
      exact hagain.1

/-- Surroundings of the sale in which the ledger pays. -/
def payingSurroundings : Surroundings :=
  { soldService.surroundings with ask := fun _ => ⟨.ok "payment", []⟩ }

/-- The buyer releases the sale. Somebody else who asks for it later is told the same, although the
ledger would refuse to pay by then. -/
theorem release_decided_soldService :
    let release : Operation := .task (Identifier.escrow 1) (.release true)
    ∃ e, (soldService.records.outcome ⟨payingSurroundings, ⟨"buyer", none⟩, release⟩).result =
        .ok (.escrow e) ∧ e.releaseTransaction = some "payment" ∧
      ((soldService.records.after ⟨payingSurroundings, ⟨"buyer", none⟩, release⟩).outcome
        ⟨refusingSurroundings, ⟨"stranger", none⟩, release⟩).result = .ok (.escrow e) := by
  intro release
  have hpaying : payingSurroundings.InOrder := ⟨by decide +kernel, by decide +kernel⟩
  have hrefusing : refusingSurroundings.InOrder := ⟨by decide +kernel, by decide +kernel⟩
  obtain ⟨d, hd, hid, hs, hc, hb⟩ : ∃ d ∈ soldService.store.escrows,
      d.id = Identifier.escrow 1 ∧ d.status = .active ∧ d.creator = "buyer" ∧
        d.recipient? = some "seller" := by
    decide +kernel
  have hruling : soldService.store.ruling (Identifier.escrow 1) "buyer" true =
      .due d.loaded "seller" := by
    have hstored := (Store.stored?_eq_some_iff soldService_reachable.kept.distinct).mpr hd
    have hc : d.loaded.creator = "buyer" := hc
    have hb : d.loaded.recipient? = some "seller" := hb
    rw [Store.ruling, Store.escrow?, ← hid, hstored]
    simp [Escrow.ruling, hs, hc, hb]
  have hpaid : (payingSurroundings.ask ⟨Identifier.escrow 1, "seller"⟩).result = .ok "payment" := rfl
  obtain ⟨as, has⟩ := soldService_reachable.attempted
  rw [← Service.store_records] at hruling
  generalize soldService.records = r at has hruling ⊢
  subst has
  obtain ⟨hdecided, -, -, hlater⟩ :=
    release_decided as payingSurroundings ⟨"buyer", none⟩ (Identifier.escrow 1) true
  simp only [hruling, hpaid] at hdecided
  obtain ⟨-, -, hreleased⟩ := hdecided hpaying
  have hresult := hreleased.result
  obtain ⟨-, hagain⟩ := hlater _ hresult
  exact ⟨_, hresult, rfl, hagain [] refusingSurroundings ⟨"stranger", none⟩ true hrefusing⟩

end Custody

import Custody.Proofs.Settlement
import Custody.Proofs.Site

/-!
# Outsiders

Somebody without a role in an escrow is turned away by every request about it, whatever its state,
and changes nothing. There are two exceptions. A release of what is released already and a
confirmation of what is confirmed already are answered before anybody asks who wants to know.

> `permit_outsider`: no permission of the policy is for outsiders.
> `Task.refuses_outsider`: every task but a release is refused to them.
> `outsider_answered`: so is every request, but for what is done already.
-/

namespace Custody

/-- A user without a role in an escrow. -/
def Escrow.Outsider (e : Escrow) (user : String) : Prop := ∀ r, ⟨user, r⟩ ∉ e.parties

/-! ## Refusals -/

section Plans

variable {e : Escrow} {cs : List Condition} {by' : Caller} {user : String}

/-- What is permitted by role is not permitted to an outsider. -/
theorem permit_outsider (ho : e.Outsider user) {a : Action} (ha : ∀ s, permission a s ≠ .system) :
    ∃ f, permit e user a = .error f := by
  cases h : permit e user a with
  | error f => exact ⟨f, rfl⟩
  | ok u =>
    rcases permit_eq_ok_iff.mp h with hp | ⟨rs, -, r, -, hmem⟩
    · exact absurd hp (ha _)
    · exact absurd hmem (ho r)

/-- A task that asks the policy before anything else, and in the name of its caller. -/
def Task.Guarded : Task → Prop
  | .update _ | .activate _ | .dispute _ | .cancel _ | .resolve .. => True
  | .release _ | .expire .. => False

/-- Every such task is refused to an outsider. -/
theorem Task.refuses_outsider (ho : e.Outsider by'.user) {t : Task} (ht : t.Guarded)
    (now : Moment) : ∃ f, t.plan now by' e cs = .refuse f := by
  have refused : ∀ {a : Action} {k : Unit → Except Failure Writes},
      (∀ s, permission a s ≠ .system) →
        ∃ f, Plan.ofWrites (permit e by'.user a >>= k) = .refuse f := by
    intro a k ha
    obtain ⟨f, hf⟩ := permit_outsider ho ha
    exact ⟨f, by rw [hf]; rfl⟩
  cases t with
  | update r => exact refused fun s => by cases s <;> decide
  | activate r => exact refused fun s => by cases s <;> decide
  | dispute r => exact refused fun s => by cases s <;> decide
  | cancel r => exact refused fun s => by cases s <;> decide
  | resolve resolution note =>
    obtain ⟨f, hf⟩ := permit_outsider ho (a := .resolveDispute) fun s => by cases s <;> decide
    refine ⟨f, ?_⟩
    show planResolution resolution note by' e = _
    unfold planResolution
    rw [hf]
  | release | expire => cases ht

/-- A release is refused to an outsider while there is something to release. -/
theorem planRelease_outsider (ho : e.Outsider by'.user) (hb : ⟨e.creator, .buyer⟩ ∈ e.parties)
    (hs : ¬(e.status = .completed ∨ e.released = true)) :
    ∃ f, planRelease true by' e cs = .refuse f := by
  unfold planRelease permitRelease
  rw [if_neg hs]
  split
  next => exact ⟨_, rfl⟩
  next =>
    -- The creator is on record as the buyer, so he is no outsider.
    have hne : e.creator ≠ by'.user := fun h => ho .buyer (h ▸ hb)
    rw [if_pos rfl, if_neg hne]
    exact ⟨_, rfl⟩

/-- A confirmation is refused to an outsider while the condition is open. -/
theorem planConfirmation_outsider (ho : e.Outsider by'.user) {k : Identifier}
    (hk : ∀ c ∈ cs, c.id = k → c.met = false) :
    ∃ f, planConfirmation k by' e cs = .refuse f := by
  unfold planConfirmation
  split
  next => exact ⟨_, rfl⟩
  next c hc =>
    have hid : c.id = k := by simpa using List.find?_some hc
    have hopen : c.met = false := hk c (List.mem_of_find?_eq_some hc) hid
    rw [if_neg (by rw [hopen]; decide)]
    obtain ⟨f, hf⟩ := permit_outsider ho (a := .confirmCondition) fun s => by cases s <;> decide
    rw [hf]
    exact ⟨f, rfl⟩

end Plans

/-! ## Operations -/

section Transactions

variable {env : Surroundings} {x : Identifier} {plan : Escrow → List Condition → Plan} {s : Store}
  {c : Counters} {e : Escrow}

theorem carryOut_of_refuse (he : s.escrow? x = some e)
    (hp : ∃ f, plan e (s.conditionsOf x) = .refuse f) :
    ∃ f, (carryOut env x plan s c).result = .error f := by
  obtain ⟨f, hp⟩ := hp
  have hk : (plan e (s.conditionsOf x)).conclude env.ask = ⟨Writes.nothing, .error f, none⟩ := by
    rw [hp]
    rfl
  exact ⟨f, by rw [carryOut_of_error he hk rfl]⟩

/-- A plan that only writes a log answers with the record as it is. -/
theorem carryOut_of_finish (he : s.escrow? x = some e) {log : List LogEntry}
    (hp : plan e (s.conditionsOf x) = ⟨{ log := log }, .finish⟩) :
    carryOut env x plan s c = ⟨.ok e, s, c, log, [], none, none⟩ := by
  have hk : (plan e (s.conditionsOf x)).conclude env.ask = ⟨{ log := log }, .ok (), none⟩ := by
    rw [hp]
    rfl
  rw [carryOut_of_ok he hk rfl rfl]
  rfl

theorem underLock_of_error {work : Store → Counters → Outcome Escrow}
    (h : ∃ f, (work s c).result = .error f) :
    ∃ f, (underLock env x work s c).result = .error f := by
  unfold underLock
  split
  next => exact ⟨_, rfl⟩
  next =>
    cases env.database with
    | some f => exact ⟨_, rfl⟩
    | none => exact h

/-- Under a lock that is free such a plan answers with the record, too. -/
theorem underLock_of_finish (he : s.escrow? x = some e) {log : List LogEntry}
    (hp : plan e (s.conditionsOf x) = ⟨{ log := log }, .finish⟩)
    (hl : (env.lease.any fun l => !l.acquired) = false) (hdb : env.database = none) :
    underLock env x (carryOut env x plan) s c =
      ⟨.ok e, s, c, log.map (LogEntry.bind (some x)) ++ env.unlockLog x, [], none, none⟩ := by
  unfold underLock
  rw [if_neg (by rw [hl]; decide), hdb, carryOut_of_finish he hp]

end Transactions

/-- An operation leaves the records and the ledger as they were and tells nobody. -/
structure Service.Quiet (v w : Service) (fx : Effects) : Prop where
  store : w.store = v.store
  ledger : w.ledger = v.ledger
  sent : fx.sent = []
  queued : fx.queued = []
  settled : fx.settled = []

namespace Service

variable {v : Service} {by' : Caller} {op : Operation} {e : Escrow}

theorem quiet_of_error (hs : ∀ e ∈ v.store.escrows, e.Sound) {f : Failure}
    (h : (v.perform by' op).1 = .error f) :
    v.Quiet (v.perform by' op).2.1 (v.perform by' op).2.2 := by
  obtain ⟨hstore, hledger, hsent, hqueued, hsettled⟩ := perform_error hs h
  exact ⟨hstore, hledger, hsent, hqueued, hsettled⟩

/-- An operation that writes nothing, asks for nothing and announces nothing is quiet. -/
theorem quiet_of_idle
    (hstore : (op.run v.surroundings by' v.store v.store v.counters).store = v.store)
    (hasked : (op.run v.surroundings by' v.store v.store v.counters).asked = none)
    (hann : (op.run v.surroundings by' v.store v.store v.counters).announced = none) :
    v.Quiet (v.perform by' op).2.1 (v.perform by' op).2.2 := by
  simp only [perform, performSeeing, hasked, hann]
  exact ⟨hstore, rfl, rfl, rfl, List.drop_length⟩

theorem perform_refused (he : v.store.stored? e.id = some e) (ho : e.Outsider by'.user) {t : Task}
    (ht : t.Guarded) : ∃ f, (v.perform by' (.task e.id t)).1 = .error f := by
  have hread : v.store.escrow? e.id = some e.loaded := Store.escrow?_of_stored? he
  have hout : e.loaded.Outsider by'.user := ho
  have hwork : ∃ f, (carryOut v.surroundings e.id (fun r cs => t.plan v.now by' r cs) v.store
      v.counters).result = .error f :=
    carryOut_of_refuse hread (Task.refuses_outsider hout ht v.now)
  obtain ⟨f, hf⟩ := underLock_of_error hwork
  exact ⟨f, congrArg (Except.map Answer.escrow) hf⟩

/-- A release of what is released already is answered with the record, to anybody. -/
theorem perform_release_done (by' : Caller) (he : v.store.stored? e.id = some e)
    (hdb : v.database = none) (hl : (v.lease.any fun l => !l.acquired) = false)
    (hs : e.status = .completed) :
    (v.perform by' (.task e.id (.release true))).1 = .ok (.escrow e.loaded) ∧
      v.Quiet (v.perform by' (.task e.id (.release true))).2.1
        (v.perform by' (.task e.id (.release true))).2.2 := by
  have hread : v.store.escrow? e.id = some e.loaded := Store.escrow?_of_stored? he
  have hfinish : planRelease true by' e.loaded (v.store.conditionsOf e.id) =
      ⟨{ log := [about e.id .info "settlement.already_released"
        [("tx_hash", Json.ofText? e.releaseTransaction)]] }, .finish⟩ := by
    rw [planRelease, if_pos (.inl hs)]
    rfl
  have hwork : underLock v.surroundings e.id (carryOut v.surroundings e.id (planRelease true by'))
      v.store v.counters = _ := underLock_of_finish hread hfinish hl hdb
  have hrun := congrArg (Outcome.mapResult Answer.escrow) hwork
  exact ⟨congrArg Outcome.result hrun, quiet_of_idle (congrArg Outcome.store hrun)
    (congrArg Outcome.asked hrun) (congrArg Outcome.announced hrun)⟩

/-- Any other release is refused to an outsider. -/
theorem perform_release_refused (he : v.store.stored? e.id = some e) (hsound : e.Sound)
    (ho : e.Outsider by'.user)
    (hopen : ¬(v.database = none ∧ (v.lease.any fun l => !l.acquired) = false ∧
      e.status = .completed)) :
    ∃ f, (v.perform by' (.task e.id (.release true))).1 = .error f := by
  have hread : v.store.escrow? e.id = some e.loaded := Store.escrow?_of_stored? he
  suffices h : ∃ f, (underLock v.surroundings e.id (carryOut v.surroundings e.id
      (planRelease true by')) v.store v.counters).result = .error f by
    obtain ⟨f, hf⟩ := h
    exact ⟨f, congrArg (Except.map Answer.escrow) hf⟩
  by_cases hs : e.status = .completed
  · -- It is released already, so the lock or the database is what is in the way.
    unfold underLock
    split
    next => exact ⟨_, rfl⟩
    next hlease =>
      have hl : (v.surroundings.lease.any fun l => !l.acquired) = false := by simpa using hlease
      cases hdb : v.surroundings.database with
      | some f => exact ⟨_, rfl⟩
      | none => exact absurd ⟨hdb, hl, hs⟩ hopen
  · refine underLock_of_error (carryOut_of_refuse hread ?_)
    refine planRelease_outsider (e := e.loaded) ho hsound.buyer ?_
    exact fun h => hs (h.elim id hsound.released_iff.mp)

/-- A confirmation of what is confirmed already is answered with the condition, to anybody. -/
theorem perform_confirm_done (by' : Caller) {k : Identifier} {c : Condition}
    (hc : v.store.condition? k = some c) (hdb : v.database = none) (hm : c.met = true) :
    (v.perform by' (.confirm k)).1 = .ok (.condition c) ∧
      v.Quiet (v.perform by' (.confirm k)).2.1 (v.perform by' (.confirm k)).2.2 := by
  have hrun : (Operation.confirm k).run v.surroundings by' v.store v.store v.counters =
      .settled v.store v.counters [alreadyMetLog k] (.condition c) := by
    have hdb : v.surroundings.database = none := hdb
    simp only [Operation.run, confirmCondition, hdb, hc, if_pos hm]
  exact ⟨congrArg Outcome.result hrun, quiet_of_idle (by rw [hrun]; rfl) (by rw [hrun]; rfl)
    (by rw [hrun]; rfl)⟩

/-- Any other confirmation is refused to an outsider. -/
theorem perform_confirm_refused (he : v.store.stored? e.id = some e)
    (hd : (v.store.conditions.map (·.id)).Nodup) (ho : e.Outsider by'.user) {c : Condition}
    (hc : c ∈ v.store.conditions) (hce : c.escrow = e.id)
    (hopen : ¬(v.database = none ∧ c.met = true)) :
    ∃ f, (v.perform by' (.confirm c.id)).1 = .error f := by
  have hread : v.store.escrow? e.id = some e.loaded := Store.escrow?_of_stored? he
  have hfind : v.store.condition? c.id = some c := (find?_eq_some_iff_mem hd).mpr hc
  suffices h : ∃ f, ((Operation.confirm c.id).run v.surroundings by' v.store v.store
      v.counters).result = .error f from h
  simp only [Operation.run, confirmCondition]
  cases hdb : v.surroundings.database with
  | some f => exact ⟨_, rfl⟩
  | none =>
    have hm : ¬c.met = true := fun hm => hopen ⟨hdb, hm⟩
    simp only [hfind, if_neg hm]
    have hout : e.loaded.Outsider by'.user := ho
    -- The condition is the only one with its identifier, so the plan finds no other.
    have hall : ∀ d ∈ v.store.conditionsOf e.id, d.id = c.id → d.met = false := by
      intro d hdm hid
      have hmem : d ∈ v.store.conditions := (List.mem_filter.mp hdm).1
      rw [List.inj_on_of_nodup_map hd hmem hc hid]
      simpa using hm
    rw [hce]
    have hwork : ∃ f, (carryOut v.surroundings e.id (planConfirmation c.id by') v.store
        v.counters).result = .error f :=
      carryOut_of_refuse hread (planConfirmation_outsider hout hall)
    obtain ⟨f, hf⟩ := underLock_of_error hwork
    refine ⟨f, ?_⟩
    rw [Outcome.mapResult, hf]
    rfl

end Service

namespace Api

/-! ## Replies -/

/-- Whether a response tells of success. -/
def Response.Success (x : Response) : Prop := 200 ≤ x.status ∧ x.status < 300

/-- A reply that changes nothing and tells nobody, and is a success only where it shows a view that
satisfies `P`. -/
structure Reply.Harmless (v : Service) (P : Json → Prop) (p : Reply) : Prop where
  quiet : v.Quiet p.service p.effects
  success : ∀ x, p.result = .ok x ∧ x.Success ↔ ∃ j, P j ∧ x = Response.json 200 j

/-- What a reply shows that is no success. -/
def nothingShown (_ : Json) : Prop := False

theorem statusOf_ge (x : EscrowError) : 400 ≤ statusOf x := by
  cases x <;> simp [statusOf]

/-- No failure is answered as a success. -/
theorem status_problem_ge (f : Failure) : 400 ≤ (problem f).status := by
  cases f with
  | escrow x => exact statusOf_ge x
  | _ =>
    show 400 ≤ 500
    decide

namespace Reply

variable {v : Service} {by' : Caller}

theorem quiet_nothing (v : Service) : v.Quiet v Effects.nothing := ⟨rfl, rfl, rfl, rfl, rfl⟩

theorem only_error (v : Service) (f : Failure) :
    (only v (.error f)).Harmless v nothingShown :=
  ⟨quiet_nothing v, by simp [only, nothingShown]⟩

theorem only_response {x : Response} (v : Service) (hx : 300 ≤ x.status) :
    (only v (.ok x)).Harmless v nothingShown := by
  refine ⟨quiet_nothing v, fun y => ⟨?_, fun ⟨_, hj, _⟩ => hj.elim⟩⟩
  rintro ⟨hy, hs⟩
  cases hy
  exact absurd hs.2 (Nat.not_lt.mpr hx)

theorem Harmless.congr {P Q : Json → Prop} {p : Reply} (h : p.Harmless v P)
    (hpq : ∀ j, P j ↔ Q j) : p.Harmless v Q := by
  obtain rfl : P = Q := funext fun j => propext (hpq j)
  exact h

/-- An operation that is refused is answered by its failure. -/
theorem ofOperation_refused (hs : ∀ e ∈ v.store.escrows, e.Sound) {op : Operation}
    (h : ∃ f, (v.perform by' op).1 = .error f) (status : Nat) (told : List LogEntry) :
    (ofOperation v status by' told op).Harmless v nothingShown := by
  obtain ⟨f, hf⟩ := h
  have hquiet := Service.quiet_of_error hs hf
  unfold ofOperation
  generalize v.perform by' op = o at hf hquiet ⊢
  obtain ⟨result, w, fx⟩ := o
  cases hf
  exact ⟨hquiet, by simp [nothingShown]⟩

/-- A quiet operation is answered with what it found, where that can be shown. -/
theorem ofOperation_done {op : Operation} {a : Answer} (h : (v.perform by' op).1 = .ok a)
    (hquiet : v.Quiet (v.perform by' op).2.1 (v.perform by' op).2.2) :
    (ofOperation v 200 by' [] op).Harmless v fun j => answerView v.store a = .ok j := by
  unfold ofOperation
  generalize v.perform by' op = o at h hquiet ⊢
  obtain ⟨result, w, fx⟩ := o
  cases h
  constructor
  case quiet =>
    refine ⟨hquiet.store, hquiet.ledger, ?_, ?_, ?_⟩
    · exact (List.append_nil _).trans hquiet.sent
    · exact (List.append_nil _).trans hquiet.queued
    · exact (List.append_nil _).trans hquiet.settled
  case success =>
    have hstore : w.store = v.store := hquiet.store
    intro x
    simp only [hstore]
    cases answerView v.store a with
    | error f => simp [Except.map]
    | ok j =>
      constructor
      · rintro ⟨hx, -⟩
        cases hx
        exact ⟨j, rfl, rfl⟩
      · rintro ⟨k, hk, rfl⟩
        cases hk
        exact ⟨rfl, Nat.le_refl _, by show 200 < 300; decide⟩

end Reply

/-! ## Calls -/

/-- The calls about an escrow that look at it, or ask the policy, before they do anything. -/
inductive Asks (e : Escrow) : Call → Prop
  | show' : Asks e (.show' e.id)
  | events : Asks e (.events e.id)
  | task {t : Task} (ht : t.Guarded) : Asks e (.task e.id t)
  | expire (reason : Option String) : Asks e (.expire e.id reason)

section Calls

variable {s : Site} {by' : Caller} {e : Escrow}

theorem read_eq_error {α : Type} {v : Service} {x : Except Failure α} (h : ∃ f, x = .error f) :
    ∃ f, v.read x = .error f := by
  obtain ⟨f, rfl⟩ := h
  unfold Service.read reading
  split
  next => exact ⟨_, rfl⟩
  next => exact ⟨f, rfl⟩

/-- An escrow does not show itself to an outsider. -/
theorem readEscrow_outsider {st : Store} (he : st.stored? e.id = some e) {user : String}
    (ho : e.Outsider user) : ∃ f, st.readEscrow e.id (some user) = .error f := by
  cases h : st.readEscrow e.id (some user) with
  | error f => exact ⟨f, rfl⟩
  | ok e' =>
    obtain ⟨hread, hin⟩ := readEscrow_eq_ok_iff.mp h
    rw [Store.escrow?, he] at hread
    cases hread
    have hroles : rolesFor e.parties user = [] := List.eq_nil_iff_forall_not_mem.mpr fun r hr =>
      ho r (mem_rolesFor.mp hr)
    simp [Escrow.involves, hroles] at hin

/-- Asking is of no use to an outsider. -/
theorem Asks.refused (hs : ∀ e ∈ s.service.store.escrows, e.Sound)
    (he : s.service.store.stored? e.id = some e) (ho : e.Outsider by'.user) {c : Call}
    (h : Asks e c) : (c.answer s by').Harmless s.service nothingShown := by
  obtain ⟨f, hf⟩ := read_eq_error (v := s.service) (readEscrow_outsider he ho)
  cases h with
  | show' =>
    simp only [Call.answer, hf]
    exact Reply.only_error _ f
  | events =>
    obtain ⟨g, hg⟩ := readEscrow_outsider he ho
    have hevents : ∃ g, s.service.store.readEvents e.id (some by'.user) = .error g :=
      ⟨g, by rw [Store.readEvents, hg]; rfl⟩
    obtain ⟨g, hg⟩ := read_eq_error (v := s.service) hevents
    simp only [Call.answer, hg]
    exact Reply.only_error _ g
  | task ht => exact Reply.ofOperation_refused hs (Service.perform_refused he ho ht) 200 _
  | expire reason =>
    simp only [Call.answer, hf]
    exact Reply.only_error _ f

/-- A release shows an outsider nothing, unless the escrow is released already. -/
theorem release_outsider (hs : ∀ e ∈ s.service.store.escrows, e.Sound)
    (he : s.service.store.stored? e.id = some e) (ho : e.Outsider by'.user) :
    ((Call.task e.id (.release true)).answer s by').Harmless s.service fun j =>
      (s.service.database = none ∧ (s.service.lease.any fun l => !l.acquired) = false ∧
        e.status = .completed) ∧ escrowView s.service.store e.loaded = .ok j := by
  by_cases hdone : s.service.database = none ∧
      (s.service.lease.any fun l => !l.acquired) = false ∧ e.status = .completed
  · obtain ⟨hanswer, hquiet⟩ :=
      Service.perform_release_done by' he hdone.1 hdone.2.1 hdone.2.2
    exact (Reply.ofOperation_done hanswer hquiet).congr fun j => ⟨fun h => ⟨hdone, h⟩, And.right⟩
  · have hsound : e.Sound := hs e (List.mem_of_find?_eq_some he)
    have hrefused := Service.perform_release_refused he hsound ho hdone
    exact (Reply.ofOperation_refused hs hrefused 200 _).congr fun j =>
      ⟨False.elim, fun h => hdone h.1⟩

/-- A confirmation shows an outsider nothing, unless the condition is confirmed already. -/
theorem confirm_outsider (hs : ∀ e ∈ s.service.store.escrows, e.Sound)
    (hd : (s.service.store.conditions.map (·.id)).Nodup)
    (he : s.service.store.stored? e.id = some e) (ho : e.Outsider by'.user) {c : Condition}
    (hc : c ∈ s.service.store.conditions) (hce : c.escrow = e.id) :
    ((Call.confirm c.id).answer s by').Harmless s.service fun j =>
      (s.service.database = none ∧ c.met = true) ∧ conditionView c = .ok j := by
  by_cases hdone : s.service.database = none ∧ c.met = true
  · have hfind : s.service.store.condition? c.id = some c := (find?_eq_some_iff_mem hd).mpr hc
    obtain ⟨hanswer, hquiet⟩ := Service.perform_confirm_done by' hfind hdone.1 hdone.2
    exact (Reply.ofOperation_done hanswer hquiet).congr fun j => ⟨fun h => ⟨hdone, h⟩, And.right⟩
  · have hrefused := Service.perform_confirm_refused he hd ho hc hce hdone
    exact (Reply.ofOperation_refused hs hrefused 200 _).congr fun j =>
      ⟨False.elim, fun h => hdone h.1⟩

end Calls

/-! ## Requests -/

/-- The requests that are about an escrow: those with its identifier in their path, and the
confirmations with the identifier of one of its conditions. -/
inductive Concerns (s : Store) (e : Escrow) (holes : List String) : Endpoint → Prop
  | escrow {ep : Endpoint}
      (hep : ep ∈ [.show', .events, .update, .activate, .cancel, .expire, .release, .dispute,
        .resolve]) (hi : inPath "escrow_id" holes = .ok e.id) : Concerns s e holes ep
  | condition {c : Condition} (hc : c ∈ s.conditions) (hce : c.escrow = e.id)
      (hi : inPath "condition_id" holes = .ok c.id) : Concerns s e holes .confirm

/-- The requests for what is done already, each with the view that it is answered with before
anybody asks who wants to know. -/
inductive DoneAlready (v : Service) (e : Escrow) (holes : List String) : Endpoint → Json → Prop
  | release {j : Json} (hl : (v.lease.any fun l => !l.acquired) = false)
      (hs : e.status = .completed) (hv : escrowView v.store e.loaded = .ok j) :
      DoneAlready v e holes .release j
  | confirm {c : Condition} {j : Json} (hc : c ∈ v.store.conditions)
      (hi : inPath "condition_id" holes = .ok c.id) (hm : c.met = true)
      (hv : conditionView c = .ok j) : DoneAlready v e holes .confirm j

section Requests

variable {s : Site} {connection : String} {r : Request} {e : Escrow} {ep : Endpoint}
  {holes : List String}

theorem readTask_eq_ok {α : Type} {p : Payload} {reader : Reader α} {call : Identifier → α → Call}
    {i : Identifier} (hi : inPath "escrow_id" holes = .ok i) {c : Call}
    (h : readTask holes p reader call = .ok c) : ∃ a, c = call i a := by
  unfold readTask at h
  rw [hi] at h
  cases hp : p.read reader with
  | error fs =>
    rw [hp] at h
    cases h
  | ok a =>
    rw [hp] at h
    cases h
    exact ⟨a, rfl⟩

/-- A request about an escrow that is neither a release nor a confirmation asks. -/
theorem asks_of_readCall {ctx : Decimal.Context} {query : Members} {p : Payload} {c : Call}
    (hep : ep ∈ [.show', .events, .update, .activate, .cancel, .expire, .dispute, .resolve])
    (hi : inPath "escrow_id" holes = .ok e.id) (h : readCall ctx ep holes query p = .ok c) :
    Asks e c := by
  cases ep with
  | show' =>
    rw [readCall, hi] at h
    cases h
    exact .show'
  | events =>
    rw [readCall, hi] at h
    cases h
    exact .events
  | update | activate | cancel | dispute | resolve =>
    rw [readCall] at h
    obtain ⟨a, rfl⟩ := readTask_eq_ok hi h
    exact .task trivial
  | expire =>
    rw [readCall] at h
    obtain ⟨a, rfl⟩ := readTask_eq_ok hi h
    exact .expire a
  | _ => simp at hep

/-- A request shows nothing if whatever it may ask for shows nothing to its user. -/
theorem Endpoint.answer_refused (hu : ep.needsUser = true)
    (hcall : ∀ p c, r.user?.isSome → readCall s.decimals ep holes r.queryFields p = .ok c →
      (c.answer s ⟨r.user?.getD "", some (r.address connection)⟩).Harmless s.service
        nothingShown) :
    (ep.answer s connection r holes).Harmless s.service nothingShown := by
  unfold Endpoint.answer
  simp only
  split
  next => exact Reply.only_response _ (by show 300 ≤ 422; decide)
  next => exact Reply.only_response _ (by decide)
  next p _ =>
    split
    next => exact Reply.only_response _ (by decide)
    next huser =>
      split
      next => exact Reply.only_response _ (by decide)
      next =>
        split
        next fs hread =>
          unfold Payload.refuse
          split
          next => exact Reply.only_response _ (by show 300 ≤ 422; decide)
          next => exact Reply.only_error _ _
        next c hread =>
          refine hcall p c ?_ hread
          cases h : r.user? with
          | none => exact absurd ⟨hu, by rw [h]; rfl⟩ huser
          | some u => rfl

/-- A request without a body shows what its call shows, to a user while the services are up. -/
theorem Endpoint.answer_bodiless (connection : String) (hb : ep.takesBody = false)
    (hu : ep.needsUser = true) (hn : ep.needsServices = true) {c : Call}
    (hread : readCall s.decimals ep holes r.queryFields .nothing = .ok c) {P : Json → Prop}
    (hcall : r.user?.isSome →
      (c.answer s ⟨r.user?.getD "", some (r.address connection)⟩).Harmless s.service P) :
    (ep.answer s connection r holes).Harmless s.service fun j =>
      r.user?.isSome = true ∧ s.up = true ∧ P j := by
  unfold Endpoint.answer
  simp only [hb, Bool.false_eq_true, if_false, hu, hn, true_and]
  split
  next huser =>
    refine (Reply.only_response s.service (by decide)).congr fun j => ⟨False.elim, fun h => ?_⟩
    rw [Option.isNone_iff_eq_none.mp huser] at h
    cases h.1
  next huser =>
    have hsome : r.user?.isSome = true := by
      cases h : r.user? with
      | none => exact absurd (by rw [h]; rfl) huser
      | some u => rfl
    split
    next hdown =>
      refine (Reply.only_response s.service (by decide)).congr fun j => ⟨False.elim, fun h => ?_⟩
      rw [h.2.1] at hdown
      cases hdown
    next hup =>
      have hup : s.up = true := by simpa using hup
      rw [hread]
      exact (hcall hsome).congr fun j => ⟨fun h => ⟨hsome, hup, h⟩, fun h => h.2.2⟩

/-- A release is harmless when an outsider asks for it, and shows him what is released already. -/
theorem Endpoint.answer_release (hs : ∀ e ∈ s.service.store.escrows, e.Sound)
    (he : s.service.store.stored? e.id = some e)
    (ho : r.user?.isSome = true → e.Outsider (r.user?.getD ""))
    (hi : inPath "escrow_id" holes = .ok e.id) :
    (Endpoint.release.answer s connection r holes).Harmless s.service fun j =>
      r.user?.isSome = true ∧ s.up = true ∧ s.service.database = none ∧
        DoneAlready s.service e holes .release j := by
  have hread : readCall s.decimals .release holes r.queryFields .nothing =
      .ok (.task e.id (.release true)) := by
    rw [readCall, hi]
    rfl
  have hreply := Endpoint.answer_bodiless connection rfl rfl rfl hread
    fun hu => release_outsider hs he (ho hu)
  refine hreply.congr fun j => and_congr_right fun _ => and_congr_right fun _ => ⟨?_, ?_⟩
  · rintro ⟨⟨hdb, hl, hdone⟩, hv⟩
    exact ⟨hdb, .release hl hdone hv⟩
  · rintro ⟨hdb, ⟨hl, hdone, hv⟩⟩
    exact ⟨⟨hdb, hl, hdone⟩, hv⟩

/-- So is a confirmation, and it shows him what is confirmed already. -/
theorem Endpoint.answer_confirm (hs : ∀ e ∈ s.service.store.escrows, e.Sound)
    (hd : (s.service.store.conditions.map (·.id)).Nodup)
    (he : s.service.store.stored? e.id = some e)
    (ho : r.user?.isSome = true → e.Outsider (r.user?.getD "")) {c : Condition}
    (hc : c ∈ s.service.store.conditions) (hce : c.escrow = e.id)
    (hi : inPath "condition_id" holes = .ok c.id) :
    (Endpoint.confirm.answer s connection r holes).Harmless s.service fun j =>
      r.user?.isSome = true ∧ s.up = true ∧ s.service.database = none ∧
        DoneAlready s.service e holes .confirm j := by
  have hread : readCall s.decimals .confirm holes r.queryFields .nothing = .ok (.confirm c.id) := by
    rw [readCall, hi]
    rfl
  have hreply := Endpoint.answer_bodiless connection rfl rfl rfl hread
    fun hu => confirm_outsider hs hd he (ho hu) hc hce
  refine hreply.congr fun j => and_congr_right fun _ => and_congr_right fun _ => ⟨?_, ?_⟩
  · rintro ⟨⟨hdb, hm⟩, hv⟩
    exact ⟨hdb, .confirm hc hi hm hv⟩
  · rintro ⟨hdb, hdone⟩
    cases hdone with
    | @confirm q _ hq hqi hm hv =>
      -- The identifier in the path is that of one condition only.
      have hid : q.id = c.id := Except.ok.inj (hqi.symm.trans hi)
      rw [List.inj_on_of_nodup_map hd hq hc hid] at hm hv
      exact ⟨⟨hdb, hm⟩, hv⟩

/-- Any other request about an escrow is harmless, too, and shows an outsider nothing. -/
theorem Endpoint.answer_asking (hs : ∀ e ∈ s.service.store.escrows, e.Sound)
    (he : s.service.store.stored? e.id = some e)
    (ho : r.user?.isSome = true → e.Outsider (r.user?.getD ""))
    (hep : ep ∈ [.show', .events, .update, .activate, .cancel, .expire, .dispute, .resolve])
    (hi : inPath "escrow_id" holes = .ok e.id) :
    (ep.answer s connection r holes).Harmless s.service nothingShown := by
  have hu : ep.needsUser = true := by
    simp only [List.mem_cons, List.not_mem_nil, or_false] at hep
    rcases hep with rfl | rfl | rfl | rfl | rfl | rfl | rfl | rfl <;> rfl
  refine Endpoint.answer_refused hu fun p c huser hread => ?_
  exact (asks_of_readCall hep hi hread).refused hs he (ho huser)

/-- A request about an escrow is harmless when it comes from an outsider, and shows him something
only if it is for what is done already. -/
theorem Endpoint.answer_outsider (hs : ∀ e ∈ s.service.store.escrows, e.Sound)
    (hd : (s.service.store.conditions.map (·.id)).Nodup)
    (he : s.service.store.stored? e.id = some e) (ho : ∀ u, r.user? = some u → e.Outsider u)
    (hc : Concerns s.service.store e holes ep) :
    (ep.answer s connection r holes).Harmless s.service fun j =>
      r.user?.isSome = true ∧ s.up = true ∧ s.service.database = none ∧
        DoneAlready s.service e holes ep j := by
  have hout : r.user?.isSome = true → e.Outsider (r.user?.getD "") := by
    intro h
    obtain ⟨u, hu⟩ := Option.isSome_iff_exists.mp h
    rw [hu]
    exact ho u hu
  cases hc with
  | condition hc hce hi => exact Endpoint.answer_confirm hs hd he hout hc hce hi
  | escrow hep hi =>
    by_cases hrelease : ep = .release
    · subst hrelease
      exact Endpoint.answer_release hs he hout hi
    · have hasking : ep ∈ [.show', .events, .update, .activate, .cancel, .expire, .dispute,
          .resolve] := by
        cases ep <;> simp_all
      refine (Endpoint.answer_asking hs he hout hasking hi).congr fun j => ⟨False.elim, ?_⟩
      -- Only a release and a confirmation can be for what is done already.
      rintro ⟨-, -, -, hdone⟩
      cases hdone with
      | release => exact hrelease rfl
      | confirm => simp at hep

/-- Only some methods are those of endpoints. -/
theorem method_of_found (h : Destination.find r.method r.path = .found ep holes) :
    r.method ≠ "OPTIONS" ∧ r.method ≠ "HEAD" := by
  obtain ⟨route, hroute, hmethod, -⟩ := Destination.find_found_mem h
  have hall : ∀ route ∈ Route.all, route.method ≠ "OPTIONS" ∧ route.method ≠ "HEAD" := by decide
  rw [← hmethod]
  exact hall route hroute

/-- A request to an endpoint is replied to by the endpoint, with a header. -/
theorem share_of_found (h : Destination.find r.method r.path = .found ep holes) :
    share s connection r =
      { ep.answer s connection r holes with
        result := (ep.answer s connection r holes).result.map fun x =>
          { x with allowOrigin := r.header? "origin" } } := by
  have hpreflight : r.preflight? = none := by
    unfold Request.preflight?
    rw [if_neg fun hr => (method_of_found h).1 hr.1]
  unfold share route
  rw [hpreflight, h]

/-- What comes of a request to an endpoint is the reply of the endpoint. -/
theorem answer_of_found (h : Destination.find r.method r.path = .found ep holes) {P : Json → Prop}
    (hreply : (ep.answer s connection r holes).Harmless s.service P) :
    s.service.Quiet (answer s connection r).2.1 (answer s connection r).2.2 ∧
      ((answer s connection r).1.Success ↔ ∃ j, P j) ∧
      ∀ j, P j → (answer s connection r).1.status = 200 ∧
        (answer s connection r).1.content = .json j := by
  obtain ⟨-, hhead⟩ := method_of_found h
  unfold answer
  rw [share_of_found h]
  generalize ep.answer s connection r holes = p at hreply ⊢
  obtain ⟨result, w, fx⟩ := p
  obtain ⟨hquiet, hsuccess⟩ := hreply
  -- On its way out a reply gets a header and an entry in the log, and nothing else.
  have marked : ∀ log, s.service.Quiet { w with context := r.context }
      (Service.mark { w with context := r.context } (fx.followedBy (Effects.ofLog log))) :=
    fun log => ⟨hquiet.store, hquiet.ledger, (List.append_nil _).trans hquiet.sent,
      (List.append_nil _).trans hquiet.queued, (List.append_nil _).trans hquiet.settled⟩
  cases result with
  | error f =>
    have hnone : ∀ j, ¬P j := by
      intro j hj
      obtain ⟨hx, -⟩ := (hsuccess _).mpr ⟨j, hj, rfl⟩
      cases hx
    refine ⟨marked [problemLog f], ⟨fun h => ?_, fun ⟨j, hj⟩ => absurd hj (hnone j)⟩,
      fun j hj => absurd hj (hnone j)⟩
    exact absurd h.2 (Nat.not_lt.mpr (Nat.le_trans (by decide) (status_problem_ge f)))
  | ok x =>
    have shown : ∀ j, P j → x = Response.json 200 j := by
      intro j hj
      obtain ⟨hx, -⟩ := (hsuccess _).mpr ⟨j, hj, rfl⟩
      exact Except.ok.inj hx
    refine ⟨marked [], ⟨fun h => ?_, fun ⟨j, hj⟩ => ?_⟩, fun j hj => ?_⟩
    · obtain ⟨j, hj, -⟩ := (hsuccess x).mp ⟨rfl, h⟩
      exact ⟨j, hj⟩
    · exact ((hsuccess x).mpr ⟨j, hj, shown j hj⟩).2
    · rw [shown j hj]
      exact ⟨rfl, if_neg hhead⟩

/-- A request about an escrow that comes from an outsider, in any state of the service and its
collaborators, changes no record, makes no payment and tells nobody. Its answer is a success in two
cases only: it asks for a release of what is released already, or for a confirmation of what is
confirmed already, and then it is answered with the record. -/
theorem outsider_answered (hv : Visited s.service) (he : e ∈ s.service.store.escrows)
    (hr : Destination.find r.method r.path = .found ep holes)
    (hc : Concerns s.service.store e holes ep) (ho : ∀ u, r.user? = some u → e.Outsider u) :
    s.service.Quiet (answer s connection r).2.1 (answer s connection r).2.2 ∧
      ((answer s connection r).1.Success ↔
        ∃ j, r.user?.isSome = true ∧ s.up = true ∧ s.service.database = none ∧
          DoneAlready s.service e holes ep j) ∧
      ∀ j, (r.user?.isSome = true ∧ s.up = true ∧ s.service.database = none ∧
          DoneAlready s.service e holes ep j) →
        (answer s connection r).1.status = 200 ∧ (answer s connection r).1.content = .json j := by
  have hkept : Kept s.service.store s.service.counters := hv.reachable.kept
  have hstored := (Store.stored?_eq_some_iff hkept.distinct).mpr he
  exact answer_of_found hr
    (Endpoint.answer_outsider hkept.sound hkept.conditionsDistinct hstored ho hc)

end Requests

/-- A request of somebody who has nothing to do with the sale to release what was released. -/
def strayRelease : Request :=
  { method := "POST"
    path := "/api/v1/escrows/e0000000-0000-0000-0000-000000000001/release".toList
    query := [], headers := [("x-user-id", "passer-by")], body := none, spare := 0 }

/-- He is shown the record of the sale. -/
theorem outsider_answered_paidService :
    ∃ e ∈ paidService.store.escrows, e.Outsider "passer-by" ∧
      ∃ j, escrowView paidService.store e.loaded = .ok j ∧
        (answer ⟨.usual, paidService⟩ "127.0.0.1" strayRelease).1.status = 200 ∧
        (answer ⟨.usual, paidService⟩ "127.0.0.1" strayRelease).1.content = .json j := by
  have hfacts : paidService.store.escrows.map (fun e => (e.id, e.status, e.parties)) =
      [(Identifier.escrow 1, .completed, [⟨"buyer", .buyer⟩, ⟨"seller", .seller⟩])] := by
    decide +kernel
  have hviews : ∀ e ∈ paidService.store.escrows,
      (escrowView paidService.store e.loaded).isOk = true := by
    decide +kernel
  obtain ⟨e, he⟩ : ∃ e, e ∈ paidService.store.escrows := by
    cases h : paidService.store.escrows with
    | nil => rw [h] at hfacts; cases hfacts
    | cons e rest => exact ⟨e, List.mem_cons_self ..⟩
  obtain ⟨hid, hstatus, hparties⟩ : e.id = Identifier.escrow 1 ∧ e.status = .completed ∧
      e.parties = [⟨"buyer", .buyer⟩, ⟨"seller", .seller⟩] := by
    have hmem := List.mem_map_of_mem (f := fun e : Escrow => (e.id, e.status, e.parties)) he
    rw [hfacts, List.mem_singleton] at hmem
    simpa only [Prod.mk.injEq] using hmem
  have hout : e.Outsider "passer-by" := by
    intro r hr
    rw [hparties] at hr
    simp at hr
  obtain ⟨j, hj⟩ : ∃ j, escrowView paidService.store e.loaded = .ok j := by
    have hok := hviews e he
    cases h : escrowView paidService.store e.loaded with
    | error f => rw [h] at hok; cases hok
    | ok j => exact ⟨j, rfl⟩
  have hfound : Destination.find strayRelease.method strayRelease.path =
      .found .release ["e0000000-0000-0000-0000-000000000001"] := by
    decide +kernel
  have hpath : inPath "escrow_id" ["e0000000-0000-0000-0000-000000000001"] = .ok e.id := by
    rw [hid]
    decide +kernel
  have huser : ∀ u, strayRelease.user? = some u → e.Outsider u := by
    have hu : strayRelease.user? = some "passer-by" := by decide +kernel
    rintro u h
    rw [hu] at h
    cases h
    exact hout
  have hfree : paidService.database = none ∧
      (paidService.lease.any fun l => !l.acquired) = false := by
    decide +kernel
  have hvisited : Visited paidService := (soldService_reachable.run _).visited
  obtain ⟨-, -, hanswer⟩ := @outsider_answered ⟨.usual, paidService⟩ "127.0.0.1" strayRelease
    e .release _ hvisited he hfound (.escrow (by decide) hpath) huser
  exact ⟨e, he, hout, j, hj,
    hanswer j ⟨by decide +kernel, rfl, hfree.1, .release hfree.2 hstatus hj⟩⟩

end Api

end Custody

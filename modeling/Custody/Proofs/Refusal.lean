import Custody.Proofs.Column
import Custody.Proofs.Dated
import Custody.Proofs.Progress
import Custody.Proofs.Rows

/-!
# Only the domain refuses

The same rules stand in three places: the policy says who may do what, the lifecycle which steps
there are, and the store which rows it takes. The policy is asked first, and what it lets through the
lifecycle has a step for and the store takes. So a request that has the right shape is carried out,
or refused in the words of the domain. Where the arithmetic that judges the shape rounds the amount of a
creation, it may let one through that is nothing to the store.

> `move_of_permit`: what the policy permits leads only where the lifecycle has a step.
> `Task.refusesWell`, `refusesWell_planConfirmation`: the refusals of each plan.
> `Operation.Requested.dated`: requests keep to the moments of the calendar.
> `only_domain_errors`: no request whose amount is kept fails in any other way, and whatever becomes of
> it, every row is accepted.
-/

namespace Custody

/-- The refusals of the domain that a caller has to expect. -/
inductive Failure.Expected : Failure → Prop
  | escrowNotFound (escrow : String) : Expected (.escrow (.escrowNotFound escrow))
  | conditionNotFound (condition : String) : Expected (.escrow (.conditionNotFound condition))
  | invalidState (fault : StateFault) : Expected (.escrow (.invalidState fault))
  | forbidden (actor action : String) (stated : Option String) :
      Expected (.escrow (.forbidden actor action stated))
  | invalidDefinition (fault : DefinitionFault) : Expected (.escrow (.invalidDefinition fault))
  | settlementFailed (escrow reason : String) : Expected (.escrow (.settlementFailed escrow reason))

/-- A ledger that answers, or refuses as a ledger does. -/
def Surroundings.LedgerOnly (env : Surroundings) : Prop :=
  ∀ r f, (env.ask r).result = .error f → ∃ e, f = .escrow (.ledger e)

/-! ## Requests -/

/-- Operations that are asked for by a request of the right shape, as a context of arithmetic judges it. A
release and a confirmation say nothing beside what they are about; the time of an expiry is not part of
the request, and is one that has a second of UTC. -/
inductive Operation.Requested (ctx : Decimal.Context) : Operation → Prop
  | create {src : Source} {v : Json} {r : CreateRequest} (h : CreateRequest.read ctx src v = .ok r) :
      Requested ctx (.create (.ofRequest r))
  | update {src : Source} {v : Json} {r : UpdateRequest} (x : Identifier)
      (h : UpdateRequest.read src v = .ok r) : Requested ctx (.task x (.update r))
  | activate {src : Source} {v : Json} {t : Option String} (x : Identifier)
      (h : readActivation src v = .ok t) : Requested ctx (.task x (.activate t))
  | dispute {src : Source} {v : Json} {reason : String} (x : Identifier)
      (h : readDispute src v = .ok reason) : Requested ctx (.task x (.dispute (some reason)))
  | release (x : Identifier) (manual : Bool) : Requested ctx (.task x (.release manual))
  | cancel {src : Source} {v : Json} {reason : Option String} (x : Identifier)
      (h : readReason src v = .ok reason) : Requested ctx (.task x (.cancel reason))
  | expire {src : Source} {v : Json} {reason : Option String} (x : Identifier)
      (now : Option Moment) (h : readReason src v = .ok reason)
      (hnow : ∀ m ∈ now, Moment.wallInRange m.instant = true) :
      Requested ctx (.task x (.expire reason now))
  | resolve {src : Source} {v : Json} {r : ResolveRequest} (x : Identifier)
      (h : ResolveRequest.read src v = .ok r) :
      Requested ctx (.task x (.resolve (.ok r.resolution) r.note))
  | confirm (k : Identifier) : Requested ctx (.confirm k)

/-! ### Reading -/

section Reading

variable {α β : Type} {ctx : Decimal.Context} {src : Source} {v : Json} {ms : Members} {name : String}

theorem model_eq_ok {body : Members → Reading α} {a : α} (h : model src body v = .ok a) :
    ∃ ms, body ms = .ok a := by
  unfold model at h
  split at h
  next ms => exact ⟨ms, h⟩
  next => cases h

theorem Reading.arg_eq_ok {x : Reading α} {f : Reading (α → β)} {b : β}
    (h : Reading.arg x f = .ok b) : ∃ a g, x = .ok a ∧ f = .ok g ∧ g a = b := by
  unfold arg at h
  cases hb : both f x with
  | error fs =>
    rw [hb] at h
    cases h
  | ok p =>
    rw [hb] at h
    cases h
    obtain ⟨hf, hx⟩ := both_eq_ok_iff.mp hb
    exact ⟨p.2, p.1, hx, hf, rfl⟩

theorem Reading.under_eq_ok {step : PathStep} {x : Reading α} {a : α} (h : x.under step = .ok a) :
    x = .ok a := by
  cases x with
  | ok b => exact h
  | error fs => cases h

theorem required_eq_ok {r : Reader α} {a : α} (h : required ms name r = .ok a) :
    ∃ v, r v = .ok a := by
  have h := Reading.under_eq_ok h
  split at h
  next v _ => exact ⟨v, h⟩
  next => cases h

theorem optional_eq_ok {r : Reader α} {a : α} (h : optional ms name r = .ok (some a)) :
    ∃ v, r v = .ok a := by
  unfold optional at h
  split at h
  next v _ =>
    cases hr : (r v).under (.key name) with
    | error fs =>
      rw [hr] at h
      cases h
    | ok b =>
      rw [hr] at h
      cases h
      exact ⟨v, Reading.under_eq_ok hr⟩
  next => cases h

theorem defaulted_eq_ok {r : Reader α} {a b : α} (h : defaulted ms name r b = .ok a) :
    a = b ∨ ∃ v, r v = .ok a := by
  unfold defaulted at h
  cases ho : optional ms name r with
  | error fs =>
    rw [ho] at h
    cases h
  | ok o =>
    rw [ho] at h
    cases h
    cases o with
    | none => exact .inl rfl
    | some c => exact .inr (optional_eq_ok ho)

theorem nullable_eq_ok {r : Reader α} {a : α} (h : nullable r v = .ok (some a)) : r v = .ok a := by
  unfold nullable at h
  split at h
  next => cases h
  next =>
    cases hr : r v with
    | error fs =>
      rw [hr] at h
      cases h
    | ok b =>
      rw [hr] at h
      cases h
      rfl

theorem shownMoment_eq_ok {o : Option Moment} {f : Violation} {m : Moment}
    (h : shownMoment o f = .ok m) : Moment.wallInRange m.wall = true := by
  unfold shownMoment at h
  split at h
  next =>
    split at h
    next hm =>
      cases h
      exact hm
    next => cases h
  next => cases h

/-- A moment of a request is one that a clock can show. -/
theorem moment_eq_ok {m : Moment} (h : moment src v = .ok m) :
    Moment.wallInRange m.wall = true := by
  unfold moment at h
  split at h
  next => exact shownMoment_eq_ok h
  next =>
    split at h
    next => exact shownMoment_eq_ok h
    next =>
      split at h
      next => cases h
      next => exact shownMoment_eq_ok h
  next => exact shownMoment_eq_ok h
  next =>
    unfold misfit at h
    split at h <;> cases h

/-- The terms of a request for a new escrow have an amount that was accepted, and a deadline, if any,
that a clock can show. -/
theorem CreateRequest.read_eq_ok {r : CreateRequest} (h : CreateRequest.read ctx src v = .ok r) :
    (∃ w, Custody.amount ctx src w = .ok r.amount) ∧
      ∀ m, r.deadline = some m → Moment.wallInRange m.wall = true := by
  obtain ⟨ms, hms⟩ := model_eq_ok h
  obtain ⟨deadline, _, hdeadline, h₇, rfl⟩ := Reading.arg_eq_ok hms
  obtain ⟨conditions, _, -, h₆, rfl⟩ := Reading.arg_eq_ok h₇
  obtain ⟨parties, _, -, h₅, rfl⟩ := Reading.arg_eq_ok h₆
  obtain ⟨type, _, -, h₄, rfl⟩ := Reading.arg_eq_ok h₅
  obtain ⟨asset, _, -, h₃, rfl⟩ := Reading.arg_eq_ok h₄
  obtain ⟨amount, _, hamount, h₂, rfl⟩ := Reading.arg_eq_ok h₃
  obtain ⟨description, _, -, h₁, rfl⟩ := Reading.arg_eq_ok h₂
  obtain ⟨title, _, -, hmk, rfl⟩ := Reading.arg_eq_ok h₁
  cases hmk
  refine ⟨required_eq_ok hamount, fun m hm => ?_⟩
  subst hm
  rcases defaulted_eq_ok hdeadline with hnone | ⟨w, hw⟩
  · cases hnone
  · exact moment_eq_ok (nullable_eq_ok hw)

/-- A new deadline of a request is one that a clock can show. -/
theorem UpdateRequest.read_eq_ok {r : UpdateRequest} (h : UpdateRequest.read src v = .ok r) :
    ∀ m, r.deadline = some (some m) → Moment.wallInRange m.wall = true := by
  obtain ⟨ms, hms⟩ := model_eq_ok h
  obtain ⟨deadline, _, hdeadline, h₂, rfl⟩ := Reading.arg_eq_ok hms
  obtain ⟨description, _, -, h₁, rfl⟩ := Reading.arg_eq_ok h₂
  obtain ⟨title, _, -, hmk, rfl⟩ := Reading.arg_eq_ok h₁
  cases hmk
  intro m hm
  subst hm
  obtain ⟨w, hw⟩ := optional_eq_ok hdeadline
  exact moment_eq_ok (nullable_eq_ok hw)

end Reading

/-- Requests keep to the moments of the calendar. -/
theorem Operation.Requested.dated {ctx : Decimal.Context} {op : Operation} (h : op.Requested ctx) :
    op.Dated := by
  cases h with
  | create h => exact (CreateRequest.read_eq_ok h).2
  | update x h => exact UpdateRequest.read_eq_ok h
  | activate | dispute | release | cancel | expire | resolve | confirm => trivial

/-! ## Policy and lifecycle -/

/-- The statuses that an action leads to. -/
def Action.leadsTo : Action → List Status
  | .update | .confirmCondition => []
  | .activate => [.active]
  | .raiseDispute => [.disputed]
  | .manualRelease | .autoRelease => [.completed]
  | .cancel | .expire => [.cancelled]
  | .resolveDispute => [.completed, .cancelled]

/-- Where the policy has an entry, the lifecycle has the steps. -/
theorem leadsTo_subset_successors (a : Action) (s : Status) (h : permission a s ≠ .nobody) :
    ∀ t ∈ a.leadsTo, t ∈ s.successors := by
  revert a s
  intro a s
  cases a <;> cases s <;> decide

section Plans

variable {e : Escrow} {by' : Caller} {cs : List Condition} {f : Failure}

/-- What the policy permits leads only where the lifecycle has a step. -/
theorem move_of_permit {actor : String} {a : Action} {t : Status}
    (h : permit e actor a = .ok ()) (ht : t ∈ a.leadsTo) : move e t = .ok t := by
  have hentry : permission a e.status ≠ .nobody := by
    rcases permit_eq_ok_iff.mp h with hp | ⟨rs, hp, -⟩ <;> rw [hp] <;> exact nofun
  exact move_eq_ok_iff.mpr ⟨leadsTo_subset_successors a e.status hentry t ht, rfl⟩

theorem permit_expected {actor : String} {a : Action} (h : permit e actor a = .error f) :
    f.Expected := by
  unfold permit authorize at h
  cases hv : verdict a e.status (rolesFor e.parties actor) with
  | allow =>
    rw [hv] at h
    cases h
  | forbidden =>
    rw [hv] at h
    cases h
    exact .forbidden ..
  | invalidState =>
    rw [hv] at h
    cases h
    exact .invalidState _

/-! ## Plans -/

/-- A sequence of steps fails in the first step, or in what follows it. -/
theorem Except.bind_eq_error {ε α β : Type} {x : Except ε α} {g : α → Except ε β} {err : ε}
    (h : (x >>= g) = .error err) : x = .error err ∨ ∃ a, x = .ok a ∧ g a = .error err := by
  cases x with
  | error _ =>
    cases h
    exact .inl rfl
  | ok a => exact .inr ⟨a, rfl, h⟩

/-- A plan whose refusal, if it is one, is to be expected. -/
def Plan.RefusesWell (p : Plan) : Prop := ∀ f, p.next = .refuse f → f.Expected

theorem Plan.refusesWell_refuse (h : f.Expected) : (Plan.refuse f).RefusesWell := by
  intro g hg
  cases hg
  exact h

theorem Plan.refusesWell_ofWrites {x : Except Failure Writes}
    (h : ∀ f, x = .error f → f.Expected) : (Plan.ofWrites x).RefusesWell := by
  cases x with
  | ok w => exact fun _ hg => nomatch hg
  | error f => exact refusesWell_refuse (h f rfl)

theorem Plan.RefusesWell.closing {p : Plan} (h : p.RefusesWell) (entry : LogEntry) :
    (Plan.closing entry p).RefusesWell := by
  intro f hf
  unfold Plan.closing at hf
  split at hf
  next => cases hf
  next => exact h f hf

theorem planUpdate_expected {r : UpdateRequest} (h : planUpdate r by' e = .error f) :
    f.Expected := by
  rcases Except.bind_eq_error h with hp | ⟨_, -, h⟩
  · exact permit_expected hp
  · simp only at h
    split at h <;> cases h

theorem planActivation_expected {t : Option String} (h : planActivation t by' e = .error f) :
    f.Expected := by
  rcases Except.bind_eq_error h with hp | ⟨_, hp, h⟩
  · exact permit_expected hp
  · rw [move_of_permit hp (List.mem_singleton_self _)] at h
    cases h

theorem planDispute_expected {reason : Option String} (h : planDispute reason by' e = .error f) :
    f.Expected := by
  rcases Except.bind_eq_error h with hp | ⟨_, hp, h⟩
  · exact permit_expected hp
  · rw [move_of_permit hp (List.mem_singleton_self _)] at h
    cases h

/-- Where the step to the end is there, leaving without a payment is not refused. -/
theorem cancelWrites_ne_error {type : EventType} {notice : Notice} {data : EventData}
    {reason : Option String} (hm : move e .cancelled = .ok .cancelled) :
    cancelWrites e type notice data reason by' ≠ .error f := by
  unfold cancelWrites
  rw [hm]
  exact nofun

theorem planCancellation_expected {reason : Option String}
    (h : planCancellation reason by' e = .error f) : f.Expected := by
  rcases Except.bind_eq_error h with hp | ⟨_, hp, h⟩
  · exact permit_expected hp
  · exact absurd h (cancelWrites_ne_error (move_of_permit hp (List.mem_singleton_self _)))

/-- An expiry is refused as expected when both the deadline and the time have a second of UTC. -/
theorem planExpiry_expected {reason : Option String} {now : Moment} {d : Option Moment}
    (hd : normalizeMoment e.deadline = .ok d) (hnow : Moment.wallInRange now.instant = true)
    (h : planExpiry reason now by' e = .error f) : f.Expected := by
  rcases Except.bind_eq_error h with hp | ⟨_, hp, h⟩
  · exact permit_expected hp
  · have hn : normalizeMoment (some now) =
        .ok (some (Moment.utc (Moment.floorSecond now.instant))) := by
      simp only [normalizeMoment, Moment.normalize?, if_pos hnow]
    rw [hd] at h
    cases d with
    | none =>
      cases h
      exact .invalidState _
    | some d =>
      obtain h | ⟨n, -, h⟩ := Except.bind_eq_error (x := normalizeMoment (some now)) h
      · rw [hn] at h
        cases h
      · split at h
        next =>
          exact absurd h (cancelWrites_ne_error (move_of_permit hp (List.mem_singleton_self _)))
        next =>
          cases h
          exact .invalidState _

theorem refusesWell_planPayout {basis : ReleaseBasis} (hm : move e .completed = .ok .completed) :
    (planPayout e basis by').RefusesWell := by
  unfold planPayout
  rw [hm]
  cases e.recipient? with
  | none => exact Plan.refusesWell_refuse (.invalidState _)
  | some b => exact fun _ hf => nomatch hf

theorem permitRelease_expected {manual : Bool} (h : permitRelease e cs manual by' = .error f) :
    f.Expected := by
  unfold permitRelease at h
  split at h
  next =>
    split at h
    next => exact permit_expected h
    next =>
      cases h
      exact .forbidden ..
  next =>
    rcases Except.bind_eq_error h with hp | ⟨_, -, h⟩
    · exact permit_expected hp
    · split at h
      next => cases h
      next =>
        cases h
        exact .invalidState _

theorem refusesWell_planRelease (manual : Bool) : (planRelease manual by' e cs).RefusesWell := by
  unfold planRelease
  split
  next => exact fun _ hf => nomatch hf
  next =>
    split
    next => exact Plan.refusesWell_refuse (.invalidState _)
    next hs =>
      split
      next hf => exact Plan.refusesWell_refuse (permitRelease_expected hf)
      next =>
        have hs : e.status = .active := not_not.mp hs
        exact refusesWell_planPayout (move_eq_ok_iff.mpr ⟨by rw [hs]; decide, rfl⟩)

theorem refusesWell_planResolution (r : Resolution) (note : Option String) :
    (planResolution (.ok r) note by' e).RefusesWell := by
  unfold planResolution
  cases hp : permit e by'.user .resolveDispute with
  | error f => exact Plan.refusesWell_refuse (permit_expected hp)
  | ok _ =>
    refine Plan.RefusesWell.closing ?_ _
    cases r with
    | release => exact refusesWell_planPayout (move_of_permit hp (by decide))
    | refund =>
      exact Plan.refusesWell_ofWrites fun f hf =>
        absurd hf (cancelWrites_ne_error (move_of_permit hp (by decide)))

theorem refusesWell_planConfirmation (k : Identifier) :
    (planConfirmation k by' e cs).RefusesWell := by
  unfold planConfirmation
  split
  next => exact Plan.refusesWell_refuse (.conditionNotFound _)
  next =>
    split
    next => exact fun _ hf => nomatch hf
    next =>
      split
      next hp => exact Plan.refusesWell_refuse (permit_expected hp)
      next =>
        simp only
        split
        next => exact refusesWell_planRelease false
        next => exact fun _ hf => nomatch hf

/-- The tasks that are asked for refuse as expected, on a record whose deadline has a second of
UTC. -/
theorem Task.refusesWell {ctx : Decimal.Context} {x : Identifier} {t : Task} {now : Moment}
    {d : Option Moment} (ht : (Operation.task x t).Requested ctx) (hd : normalizeMoment e.deadline = .ok d)
    (hnow : Moment.wallInRange now.instant = true) : (t.plan now by' e cs).RefusesWell := by
  cases ht with
  | update => exact Plan.refusesWell_ofWrites fun _ => planUpdate_expected
  | activate => exact Plan.refusesWell_ofWrites fun _ => planActivation_expected
  | dispute => exact Plan.refusesWell_ofWrites fun _ => planDispute_expected
  | release _ manual => exact refusesWell_planRelease manual
  | cancel => exact Plan.refusesWell_ofWrites fun _ => planCancellation_expected
  | expire _ n _ hn =>
    refine Plan.refusesWell_ofWrites fun _ => planExpiry_expected hd ?_
    cases n with
    | none => exact hnow
    | some m => exact hn m rfl
  | resolve => exact refusesWell_planResolution _ _

/-- What a plan comes to is expected, when the ledger only fails as a ledger does. -/
theorem Plan.RefusesWell.conclude {env : Surroundings} {p : Plan} (hp : p.RefusesWell)
    (henv : env.LedgerOnly) (h : (p.conclude env.ask).verdict = .error f) : f.Expected := by
  cases hn : p.next with
  | finish =>
    simp only [Plan.conclude, hn] at h
    cases h
  | refuse g =>
    simp only [Plan.conclude, hn] at h
    cases h
    exact hp _ hn
  | payOut r paid =>
    rw [(Plan.conclude_of_payOut hn env.ask).1] at h
    unfold LedgerAnswer.verdict at h
    split at h
    next => cases h
    next =>
      cases h
      exact .settlementFailed ..
    next g hother hg =>
      obtain ⟨err, rfl⟩ := henv r g hg
      exact absurd rfl (hother err)

end Plans

/-! ## Creation -/

/-- Arithmetic keeps the amount of a creation. Other operations have none. -/
def Operation.KeptBy (ctx : Decimal.Context) : Operation → Prop
  | .create n => ctx.Keeps n.amount.value
  | .task .. | .confirm _ => True

section Creation

variable {ctx : Decimal.Context} {src : Source} {v : Json} {r : CreateRequest} {creator : String}
  {f : Failure}

/-- Terms that were requested are refused for the parties alone. -/
theorem NewEscrow.define_expected (hr : CreateRequest.read ctx src v = .ok r)
    (h : (ofRequest r).define creator = .error f) : f.Expected := by
  obtain ⟨⟨w, hamount⟩, -⟩ := CreateRequest.read_eq_ok hr
  have hpositive : (ofRequest r).amount.compare? Decimal.zero = some .gt :=
    (compare?_zero_of_amount hamount).1
  unfold define at h
  simp only [hpositive, pure_bind] at h
  split at h
  next =>
    split at h
    next =>
      cases h
      exact .invalidDefinition _
    next => cases h
  next =>
    cases h
    exact .invalidDefinition _

/-- The store takes the row of terms that were requested, unless their amount is nothing to it. -/
theorem NewEscrow.row_fault?_of_requested (hr : CreateRequest.read ctx src v = .ok r) (asset : String)
    (t : EscrowType) : ((ofRequest r).row creator asset t).fault? =
      if amountPositive (some r.amount) then none
      else some (.check "ck_escrow_positive_amount") := by
  obtain ⟨⟨w, hamount⟩, -⟩ := CreateRequest.read_eq_ok hr
  have hpresent := (compare?_zero_of_amount hamount).2
  split
  next hpositive =>
    rw [EscrowRow.fault?_eq_none_iff]
    have hopen : false = (word Status.pending == word Status.completed) := by decide
    exact ⟨rfl, hpresent, rfl, Escrow.isSome_ofWord?_word .pending, hpositive, hopen, rfl⟩
  next hnothing =>
    simp [EscrowRow.fault?, missingColumn, failedCheck, NewEscrow.row, ofRequest, hpresent,
      Bool.eq_false_of_not_eq_true hnothing, Escrow.isSome_ofWord?_word .pending]

/-- An amount that was requested and is kept is something to the store. -/
theorem amountPositive_of_requested (hr : CreateRequest.read ctx src v = .ok r)
    (hkept : ctx.Keeps r.amount.value) : amountPositive (some r.amount) = true := by
  obtain ⟨⟨w, hamount⟩, -⟩ := CreateRequest.read_eq_ok hr
  obtain ⟨-, c, e, hd, hc, hfault⟩ := amount_eq_ok_iff_fault.mp hamount
  rw [hd] at hkept ⊢
  exact amountPositive_of_inUnits (Decimal.scaled_pos_iff.mpr hc)
    ((Decimal.scaled_lt_pow_iff hc).mpr (digitCount_add_le hc hfault))
    (inUnits_of_keeps hc hfault hkept)

/-- Where nothing that can be written is lost, all that is requested is kept. -/
theorem Operation.Requested.keptBy {op : Operation} (hop : op.Requested ctx) (hctx : ctx.Lossless) :
    op.KeptBy ctx := by
  cases hop with
  | create hr =>
    obtain ⟨⟨w, hamount⟩, -⟩ := CreateRequest.read_eq_ok hr
    exact keeps_of_amount hctx hamount
  | _ => trivial

end Creation

/-! ## Operations -/

section Operations

variable {env : Surroundings} {by' : Caller} {s seen : Store} {c : Counters} {f : Failure}

/-- A creation fails as expected, or the store stops it for an amount that is nothing to it. -/
theorem createEscrow_expected {ctx : Decimal.Context} {src : Source} {v : Json} {r : CreateRequest}
    (henv : env.InOrder) (hr : CreateRequest.read ctx src v = .ok r)
    (h : (createEscrow env by' (.ofRequest r) s c).result = .error f) :
    f.Expected ∨ f = .store (.check "ck_escrow_positive_amount") ∧
      amountPositive (some r.amount) = false := by
  unfold createEscrow at h
  cases hn : (NewEscrow.ofRequest r).define by'.user with
  | error g =>
    simp only [hn] at h
    cases h
    exact .inl (NewEscrow.define_expected hr hn)
  | ok d =>
    cases hpositive : amountPositive (some r.amount) with
    | true =>
      simp only [hn, henv.database, NewEscrow.row_fault?_of_requested hr, hpositive] at h
      cases h
    | false =>
      simp only [hn, henv.database, NewEscrow.row_fault?_of_requested hr, hpositive] at h
      cases h
      exact .inr ⟨rfl, rfl⟩

/-- A transaction on sound records fails as expected when its plan refuses so. -/
theorem carryOut_expected (by' : Caller) {x : Identifier}
    {plan : Escrow → List Condition → Plan} (henv : env.LedgerOnly) (hs : ∀ e ∈ s.escrows, e.Sound)
    (hplan : ∀ e, s.escrow? x = some e → (plan e (s.conditionsOf x)).RefusesWell)
    (hdeed : ∀ e, s.stored? x = some e → e.Sound →
      ((plan e.loaded (s.conditionsOf x)).conclude env.ask).verdict = .ok () →
      ((plan e.loaded (s.conditionsOf x)).conclude env.ask).IsDeed by' e.loaded
        (s.conditionsOf x) env.ask)
    (h : (carryOut env x plan s c).result = .error f) : f.Expected := by
  cases he : s.stored? x with
  | none =>
    rw [carryOut_of_none (Store.escrow?_of_not_stored? he)] at h
    cases h
    exact .escrowNotFound _
  | some e =>
    have hread : s.escrow? x = some e.loaded := Store.escrow?_of_stored? he
    cases hv : ((plan e.loaded (s.conditionsOf x)).conclude env.ask).verdict with
    | error g =>
      rw [carryOut_of_error hread rfl hv] at h
      cases h
      exact (hplan _ hread).conclude henv hv
    | ok _ =>
      -- What goes through is a deed, and the store takes what a deed makes of a sound record.
      have hsound := hs e (List.mem_of_find?_eq_some he)
      obtain ⟨paid, hd, -, -⟩ := hdeed e he hsound hv
      rw [carryOut_of_ok hread rfl hv (hd.apply_eq_ok hsound he env.now _)] at h
      cases h

theorem underLock_expected {α : Type} {x : Identifier} {work : Store → Counters → Outcome α}
    (henv : env.InOrder) (hw : (work s c).result = .error f → f.Expected)
    (h : (underLock env x work s c).result = .error f) : f.Expected := by
  have hfree : ¬(env.lease.any fun l => !l.acquired) = true := by rw [henv.lease]; decide
  simp only [underLock, if_neg hfree, henv.database] at h
  exact hw h

/-- An operation that is asked for fails as expected, on sound records with deadlines that a clock can
show; or else it is a creation whose amount is not kept, and the store stops it with a check. -/
theorem Operation.Requested.expected {ctx : Decimal.Context} {op : Operation} (hop : op.Requested ctx)
    (henv : env.InOrder) (hledger : env.LedgerOnly)
    (hnow : Moment.wallInRange env.now.instant = true) (hs : ∀ e ∈ s.escrows, e.Sound) (ht : s.Timely)
    (h : (op.run env by' seen s c).result = .error f) :
    f.Expected ∨ f = .store (.check "ck_escrow_positive_amount") ∧ ¬op.KeptBy ctx := by
  cases op with
  | create n =>
    cases hop with
    | create hr =>
      refine (createEscrow_expected henv hr (Outcome.result_mapResult_error h)).imp_right ?_
      rintro ⟨hf, hnothing⟩
      refine ⟨hf, fun hkept => ?_⟩
      rw [amountPositive_of_requested hr hkept] at hnothing
      cases hnothing
  | task x t =>
    left
    refine underLock_expected henv (fun h => ?_) (Outcome.result_mapResult_error h)
    exact carryOut_expected by' hledger hs (fun e he => t.refusesWell hop (ht.normalize he) hnow)
      (fun e _ _ hv => Task.isDeed hv) h
  | confirm k =>
    left
    simp only [Operation.run, confirmCondition, henv.database] at h
    split at h
    next =>
      cases h
      exact .conditionNotFound _
    next q _ =>
      split at h
      next => cases h
      next =>
        refine underLock_expected henv (fun h => ?_) (Outcome.result_mapResult_error h)
        refine carryOut_expected by' hledger hs (fun e _ => refusesWell_planConfirmation k)
          (fun e _ hsound hv => ?_) h
        have hreleased : e.loaded.released = true → e.loaded.status = .completed :=
          fun hr => hsound.released_iff.mp hr
        exact isDeed_planConfirmation hreleased hv

end Operations

theorem halfwayService_dated : Dated halfwayService := by
  refine soldService_dated.run fun a ha => ?_
  rw [List.mem_singleton.mp ha]
  exact trivial

/-- A request for an escrow whose buyer is not its creator. -/
def strayRequest : Json :=
  .object [("title", .text "Bicycle"), ("amount", .text "12.5000000"),
    ("parties", .list [.object [("user_id", .text "stranger"), ("role", .text "BUYER")]])]

theorem read_strayRequest : CreateRequest.read .usual .body strayRequest =
    .ok ⟨"Bicycle", none, .finite false 125000000 (-7), none, .standard, [⟨"stranger", .buyer⟩], [],
      none⟩ := rfl

end Custody

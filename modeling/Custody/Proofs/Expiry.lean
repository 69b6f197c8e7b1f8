import Custody.Proofs.Dated
import Custody.Proofs.Refusal
import Custody.Proofs.Ruling

/-!
# How an expiry is decided

An escrow expires by the deadline on record alone: it has to be open, and the deadline has to lie in an
earlier second of UTC than the time that the expiry goes by. So nothing expires at its deadline or
before, everything that is open does from a second after it on, and what has once lapsed stays lapsed. A
time that no clock of UTC can show is the exception: it is not judged at all.

> `Records.timely_run`: the deadlines that dated attempts leave are ones that a clock can show.
> `planExpiry_cases`: an expiry goes by the deadline.
> `Records.entered_of_cancellation`: what a task that cancels an escrow leaves.
> `expiry_decided`: what an expiry comes to, and from when on.
-/

namespace Custody

/-- However dated attempts surround them, the deadlines on record are ones that a clock can show. -/
theorem Records.timely_run {as : List Attempt} (h : ∀ a ∈ as, a.op.Dated) :
    (start.run as).store.Timely := by
  induction as using List.reverseRec with
  | nil => exact fun e he => nomatch he
  | append_singleton as a ih =>
    obtain ⟨has, ha⟩ := List.forall_mem_append.mp h
    rw [run_concat]
    exact Operation.timely_run (ha a (List.mem_singleton_self a)) (ih has) (kept_run as).sound _

/-! ## Deadlines -/

/-- The deadline of an open escrow has passed at a time: it lies in an earlier second of UTC. -/
structure Escrow.Lapsed (e : Escrow) (now d : Moment) : Prop where
  isOpen : e.status = .pending ∨ e.status = .active
  deadline : e.deadline = some d
  passed : Moment.floorSecond d.instant < Moment.floorSecond now.instant

/-- Why an escrow does not expire at a time. -/
inductive Escrow.Unlapsed (e : Escrow) (now : Moment) : Failure → Prop
  | closed (h : ¬(e.status = .pending ∨ e.status = .active)) :
      Unlapsed e now (.escrow (.invalidState (.action .expire (word e.status))))
  | noDeadline (hopen : e.status = .pending ∨ e.status = .active) (h : e.deadline = none) :
      Unlapsed e now (.escrow (.invalidState (.noDeadline e.status)))
  | ahead {d : Moment} (hopen : e.status = .pending ∨ e.status = .active)
      (hd : e.deadline = some d) (hnow : Moment.wallInRange now.instant = true)
      (h : Moment.floorSecond now.instant ≤ Moment.floorSecond d.instant) :
      Unlapsed e now (.escrow (.invalidState
        (.deadlineAhead (Moment.utc (Moment.floorSecond d.instant)) e.status)))
  | outOfRange {d : Moment} (hopen : e.status = .pending ∨ e.status = .active)
      (hd : e.deadline = some d) (hnow : Moment.wallInRange now.instant = false) :
      Unlapsed e now .outOfRange

namespace Moment

theorem floorSecond_mono {i j : Int} (h : i ≤ j) : floorSecond i ≤ floorSecond j := by
  unfold floorSecond second
  omega

/-- From a second later on, a moment lies in a later second. -/
theorem floorSecond_lt_of_add {i j : Int} (h : i + second ≤ j) : floorSecond i < floorSecond j := by
  unfold floorSecond second at *
  omega

@[simp]
theorem instant_withoutOffset (m : Moment) : m.withoutOffset.instant = m.wall := Int.sub_zero m.wall

@[simp]
theorem instant_utc (i : Int) : (utc i).instant = i := Int.sub_zero i

/-- A moment is cut to its second where a clock of UTC can show it. -/
theorem normalizeMoment_some (m : Moment) : normalizeMoment (some m) =
    if wallInRange m.instant = true then .ok (some (utc (floorSecond m.instant)))
    else .error .outOfRange := by
  unfold normalizeMoment normalize?
  by_cases h : wallInRange m.instant = true <;> simp [h]

end Moment

/-! ## Plans -/

/-- The policy lets everybody have an open escrow expire, and none other. -/
theorem permit_expire {e : Escrow} (actor : String) : permit e actor .expire =
    if e.status = .pending ∨ e.status = .active then .ok ()
    else .error (.escrow (.invalidState (.action .expire (word e.status)))) := by
  unfold permit authorize verdict
  cases e.status <;> rfl

section Plans

variable {e : Escrow}

/-- The draft of the event that an escrow has expired. -/
def expiryDraft (by' : Caller) (e : Escrow) (reason : Option String) (d : Moment) : EventDraft :=
  leavingDraft by' e .expired
    (.expired (reasonOr "Escrow deadline passed" reason) (Moment.utc (Moment.floorSecond d.instant))
      e.status)

/-- What is announced of an expiry. -/
def expiryNote (reason : Option String) : Announcement :=
  ⟨.expired, [("reason", .json (.text (reasonOr "Escrow deadline passed" reason)))]⟩

/-- An expiry goes by the deadline, if that is one that a clock can show. -/
theorem planExpiry_cases (reason : Option String) (now : Moment) (by' : Caller)
    (hd : ∀ d, e.deadline = some d → Moment.wallInRange d.instant = true) :
    (∃ d w, e.Lapsed now d ∧ Moment.wallInRange now.instant = true ∧
      planExpiry reason now by' e = .ok w ∧
      w.Come none (some .cancellation) [expiryDraft by' e reason d] (some (expiryNote reason))) ∨
    ∃ f, e.Unlapsed now f ∧ planExpiry reason now by' e = .error f := by
  unfold planExpiry
  rw [permit_expire]
  -- Each way to refuse is met in the order of the plan: state, deadline, clock, time.
  by_cases hopen : e.status = .pending ∨ e.status = .active
  · rw [if_pos hopen]
    cases hdeadline : e.deadline with
    | none => exact .inr ⟨_, .noDeadline hopen hdeadline, rfl⟩
    | some d =>
      simp only [bind, Except.bind, Moment.normalizeMoment_some, if_pos (hd d hdeadline)]
      by_cases hnow : Moment.wallInRange now.instant = true
      · simp only [if_pos hnow, Option.any_some, Moment.instant_utc, decide_eq_true_eq]
        by_cases hover : Moment.floorSecond d.instant < Moment.floorSecond now.instant
        · rw [if_pos hover]
          have hmove : move e .cancelled = .ok .cancelled := by
            unfold move
            rcases hopen with h | h <;> rw [h] <;> rfl
          cases hw : cancelWrites e .expired .expired (.expired
              (reasonOr "Escrow deadline passed" reason)
              (Moment.utc (Moment.floorSecond d.instant)) e.status)
              (some (reasonOr "Escrow deadline passed" reason)) by' with
          | error f => exact absurd hw (cancelWrites_ne_error hmove)
          | ok w =>
            exact .inl ⟨d, w, ⟨hopen, hdeadline, hover⟩, hnow, rfl, cancelWrites_come hw⟩
        · rw [if_neg hover]
          exact .inr ⟨_, .ahead hopen hdeadline hnow (Int.not_lt.mp hover), rfl⟩
      · simp only [if_neg hnow]
        exact .inr ⟨_, .outOfRange hopen hdeadline (by simpa using hnow), rfl⟩
  · rw [if_neg hopen]
    exact .inr ⟨_, .closed hopen, rfl⟩

end Plans

/-! ## Transactions -/

/-- What a task leaves that brings the record of an escrow into another state: it is written down, and is
read again as it was answered. -/
structure Outcome.Entered (o : Outcome Answer) (r : Records) (now : Moment) (e : Escrow)
    (draft : EventDraft) (note : Announcement) : Prop extends o.Recorded r now e draft note where
  record : o.store.escrow? e.id = some e

section Transactions

variable {r : Records} {env : Surroundings} {by' : Caller}

/-- A task that leaves the escrow cancelled is written down. -/
theorem Records.entered_of_cancellation (hk : Kept r.store r.counters) (henv : env.InOrder)
    {d : Escrow} (hd : r.store.stored? d.id = some d) {t : Task} {draft : EventDraft}
    {note : Announcement} {w : Writes}
    (hplan : t.plan env.now by' d.loaded (r.store.conditionsOf d.id) = .ofWrites (.ok w))
    (hw : w.Come none (some .cancellation) [draft] (some note)) :
    (r.outcome ⟨env, by', .task d.id t⟩).Entered r env.now
      { d.loaded with status := .cancelled, updatedAt := env.now } draft note := by
  have hconclude : (t.plan env.now by' d.loaded (r.store.conditionsOf d.id)).conclude env.ask =
      ⟨w, .ok (), none⟩ := by
    rw [hplan]
    rfl
  obtain ⟨hrecorded, hstored⟩ := recorded_of_come hk henv hd hconclude rfl hw
  refine ⟨hrecorded, ?_⟩
  show (Store.stored? _ d.id).map Escrow.loaded = _
  rw [hstored]
  rfl

/-- An expiry comes to what the deadline says. -/
theorem Records.expiry_cases (hk : Kept r.store r.counters) (ht : r.store.Timely)
    (henv : env.InOrder) (by' : Caller) (x : Identifier) (reason : Option String)
    (now : Option Moment) :
    let o := r.outcome ⟨env, by', .task x (.expire reason now)⟩
    o.asked = none ∧ match r.store.escrow? x with
    | none => o.result = .error (.escrow (.escrowNotFound x.text)) ∧ o.Idle r
    | some e =>
      (∃ d, e.Lapsed (now.getD env.now) d ∧ Moment.wallInRange (now.getD env.now).instant = true ∧
        o.Entered r env.now { e with status := .cancelled, updatedAt := env.now }
          (expiryDraft by' e reason d) (expiryNote reason)) ∨
      ∃ f, e.Unlapsed (now.getD env.now) f ∧ o.result = .error f ∧ o.Idle r := by
  intro o
  obtain ⟨hresult, hstore, hasked, hannounced⟩ := r.outcome_task henv by' x (.expire reason now)
  cases he : r.store.stored? x with
  | none =>
    have hread : r.store.escrow? x = none := Store.escrow?_of_not_stored? he
    rw [carryOut_of_none hread] at hresult hstore hasked hannounced
    rw [hread]
    exact ⟨hasked, hresult, hstore, hannounced⟩
  | some a =>
    have hid : a.id = x := by simpa using List.find?_some he
    subst hid
    have hread : r.store.escrow? a.id = some a.loaded := Store.escrow?_of_stored? he
    -- The record is read without an offset, so its clock shows the deadline as it was set.
    have hclock : ∀ d, a.loaded.deadline = some d → Moment.wallInRange d.instant = true := by
      intro d hd
      obtain ⟨m, hm, rfl⟩ := Option.map_eq_some_iff.mp hd
      rw [Moment.instant_withoutOffset]
      exact ht a (List.mem_of_find?_eq_some he) m hm
    rw [hread]
    rcases planExpiry_cases reason (now.getD env.now) by' hclock with
      ⟨d, w, hlapsed, hnow, hw, hcome⟩ | ⟨f, hunlapsed, hf⟩
    · have hplan : Task.plan env.now by' a.loaded (r.store.conditionsOf a.id) (.expire reason now) =
          .ofWrites (.ok w) := congrArg Plan.ofWrites hw
      refine ⟨?_, .inl ⟨d, hlapsed, hnow, entered_of_cancellation hk henv he hplan
        hcome⟩⟩
      exact hasked.trans ((asked_carryOut hread).trans (by rw [hplan]; rfl))
    · have hconclude : (Task.plan env.now by' a.loaded (r.store.conditionsOf a.id)
          (.expire reason now)).conclude env.ask = ⟨Writes.nothing, .error f, none⟩ := by
        rw [show Task.plan env.now by' a.loaded (r.store.conditionsOf a.id) (.expire reason now) =
          .ofWrites (.error f) from congrArg Plan.ofWrites hf]
        rfl
      rw [carryOut_of_error hread hconclude rfl] at hresult hstore hasked hannounced
      exact ⟨hasked, .inr ⟨f, hunlapsed, hresult, hstore, hannounced⟩⟩

/-- What an expiry comes to on an escrow at a time: exactly what has lapsed expires, and what does not
expire stays as it is. -/
structure Outcome.Expires (o : Outcome Answer) (r : Records) (env : Surroundings) (by' : Caller)
    (reason : Option String) (now : Moment) (e : Escrow) : Prop where
  iff : (∃ a, o.result = .ok a) ↔ Moment.wallInRange now.instant = true ∧ ∃ d, e.Lapsed now d
  expired : Moment.wallInRange now.instant = true → ∀ d, e.Lapsed now d →
    o.Entered r env.now { e with status := .cancelled, updatedAt := env.now }
      (expiryDraft by' e reason d) (expiryNote reason)
  refused : ∀ f, o.result = .error f → e.Unlapsed now f ∧ o.Idle r

/-- What has lapsed is not refused, unless no clock of UTC can show the time. -/
theorem Escrow.Lapsed.wallInRange_eq_false {e : Escrow} {now d : Moment} {f : Failure}
    (h : e.Lapsed now d) (hf : e.Unlapsed now f) : Moment.wallInRange now.instant = false := by
  cases hf with
  | closed hclosed => exact absurd h.isOpen hclosed
  | noDeadline _ hnone =>
    rw [h.deadline] at hnone
    cases hnone
  | ahead _ hd _ hahead =>
    rw [h.deadline] at hd
    cases hd
    exact absurd h.passed (Int.not_lt.mpr hahead)
  | outOfRange _ _ hnow => exact hnow

theorem Records.expires (hk : Kept r.store r.counters) (ht : r.store.Timely) (henv : env.InOrder)
    (by' : Caller) {x : Identifier} (reason : Option String) (now : Option Moment) {e : Escrow}
    (he : r.store.escrow? x = some e) :
    (r.outcome ⟨env, by', .task x (.expire reason now)⟩).Expires r env by' reason
      (now.getD env.now) e := by
  obtain ⟨-, hcases⟩ := expiry_cases hk ht henv by' x reason now
  rw [he] at hcases
  rcases hcases with ⟨d, hlapsed, hnow, hentered⟩ | ⟨f, hunlapsed, hf, hidle⟩
  · constructor
    case iff => exact iff_of_true ⟨_, hentered.result⟩ ⟨hnow, d, hlapsed⟩
    case expired =>
      intro _ d' hlapsed'
      obtain rfl : d = d' := Option.some.inj (hlapsed.deadline.symm.trans hlapsed'.deadline)
      exact hentered
    case refused =>
      intro f hf
      rw [hentered.result] at hf
      cases hf
  · have hnever : ¬(Moment.wallInRange (now.getD env.now).instant = true ∧
        ∃ d, e.Lapsed (now.getD env.now) d) := by
      rintro ⟨hnow, d, hlapsed⟩
      rw [hlapsed.wallInRange_eq_false hunlapsed] at hnow
      cases hnow
    constructor
    case iff =>
      refine iff_of_false ?_ hnever
      rintro ⟨a, ha⟩
      rw [hf] at ha
      cases ha
    case expired => exact fun hnow d hlapsed => absurd ⟨hnow, d, hlapsed⟩ hnever
    case refused =>
      intro g hg
      rw [hf] at hg
      cases hg
      exact ⟨hunlapsed, hidle⟩

end Transactions

/-- After any attempts with moments that a clock can show, and where nothing but the ledger can be out
of order: an escrow expires exactly when it is open and its deadline lies in an earlier second of UTC than
the time, one that a clock of UTC can show. It is cancelled then, with one event that tells of the reason,
the deadline and the state that it was in; otherwise the expiry is refused, and nothing changes. The
ledger is never asked. So no escrow expires at its deadline or before, an open one does at every time from
a second after it on, and what expires at one time would expire at every later one. -/
theorem expiry_decided {as : List Attempt} (has : ∀ a ∈ as, a.op.Dated) (env : Surroundings)
    (by' : Caller) (x : Identifier) (reason : Option String) :
    let r := Records.start.run as
    let expiry (now : Option Moment) := r.outcome ⟨env, by', .task x (.expire reason now)⟩
    let clock (now : Option Moment) := now.getD env.now
    (env.InOrder → ∀ now, (expiry now).asked = none ∧ match r.store.escrow? x with
      | none => (expiry now).result = .error (.escrow (.escrowNotFound x.text)) ∧ (expiry now).Idle r
      | some e => (expiry now).Expires r env by' reason (clock now) e ∧ ∀ d, e.deadline = some d →
        ((clock now).instant ≤ d.instant → ∀ a, (expiry now).result ≠ .ok a) ∧
        (e.status = .pending ∨ e.status = .active → d.instant + Moment.second ≤ (clock now).instant →
          Moment.wallInRange (clock now).instant = true → ∃ a, (expiry now).result = .ok a) ∧
        ∀ later, (clock now).instant ≤ (clock later).instant →
          Moment.wallInRange (clock later).instant = true →
          (∃ a, (expiry now).result = .ok a) → ∃ a, (expiry later).result = .ok a) ∧
    (¬env.InOrder → ∀ now, (∃ f, (expiry now).result = .error f) ∧ (expiry now).asked = none ∧
      (expiry now).Idle r) := by
  intro r expiry clock
  have hk : Kept r.store r.counters := Records.kept_run as
  have ht : r.store.Timely := Records.timely_run has
  refine ⟨fun henv now => ?_, fun henv now => ?_⟩
  · have hcases := Records.expiry_cases hk ht henv by' x reason now
    refine ⟨hcases.1, ?_⟩
    cases he : r.store.escrow? x with
    | none =>
      rw [he] at hcases
      exact hcases.2
    | some e =>
      have hexpires := fun now => Records.expires hk ht henv by' reason now he
      refine ⟨hexpires now, fun d hd => ⟨fun hle a ha => ?_, fun hopen hle hnow => ?_, ?_⟩⟩
      · obtain ⟨-, d', hlapsed⟩ := (hexpires now).iff.mp ⟨a, ha⟩
        obtain rfl : d = d' := Option.some.inj (hd.symm.trans hlapsed.deadline)
        exact absurd hlapsed.passed (Int.not_lt.mpr (Moment.floorSecond_mono hle))
      · exact (hexpires now).iff.mpr ⟨hnow, d, hopen, hd, Moment.floorSecond_lt_of_add hle⟩
      · intro later hle hlater hnow
        obtain ⟨-, d', hlapsed⟩ := (hexpires now).iff.mp hnow
        exact (hexpires later).iff.mpr ⟨hlater, d', hlapsed.isOpen, hlapsed.deadline,
          Int.lt_of_lt_of_le hlapsed.passed (Moment.floorSecond_mono hle)⟩
  · obtain ⟨hf, hasked, hstore, hannounced⟩ := Operation.run_task_of_not_inOrder henv x
      (.expire reason now) by' r.store r.store r.counters
    exact ⟨hf, hasked, hstore, hannounced⟩

/-- The sale is set up with a deadline a minute after the beginning, and funded. -/
def datedSale : List Attempt :=
  let attempt (op : Operation) : Attempt :=
    ⟨(Service.start 0 Settings.usual .recorder none).surroundings, ⟨"buyer", none⟩, op⟩
  [attempt (.create { sale with deadline := some ⟨60 * Moment.second, none⟩ }),
    attempt (.task (Identifier.escrow 1) (.activate (some "funds")))]

theorem datedSale_dated : ∀ a ∈ datedSale, a.op.Dated := by
  intro a ha
  rcases List.mem_cons.mp ha with rfl | ha
  · intro m hm
    cases hm
    decide
  · rw [List.mem_singleton.mp ha]
    trivial

/-- The surroundings of the sale. -/
def quietSurroundings : Surroundings := (Service.start 0 Settings.usual .recorder none).surroundings

theorem quietSurroundings_inOrder : quietSurroundings.InOrder :=
  ⟨by decide +kernel, by decide +kernel⟩

/-- At the end of the minute it does not expire, nor within the second that begins then; a second later
it does, whoever asks. The last second of the calendar, told by a clock that is behind UTC, is a time that
is not judged. -/
theorem expiry_decided_datedSale :
    let r := Records.start.run datedSale
    let expiry (now : Moment) := (r.outcome ⟨quietSurroundings, ⟨"passer-by", none⟩,
      .task (Identifier.escrow 1) (.expire none (some now))⟩).result
    (∀ a, expiry ⟨60 * Moment.second, none⟩ ≠ .ok a) ∧
      (∃ f, expiry ⟨61 * Moment.second - 1, none⟩ = .error f) ∧
      (∃ a, expiry ⟨61 * Moment.second, none⟩ = .ok a) ∧
      expiry ⟨Moment.wallEnd - Moment.second, some (-60 * Moment.second)⟩ = .error .outOfRange := by
  intro r expiry
  obtain ⟨e, he, hfacts⟩ : ∃ e, (Records.start.run datedSale).store.escrow? (Identifier.escrow 1) =
      some e ∧ (e.status, e.deadline) = (.active, some ⟨60 * Moment.second, none⟩) :=
    Option.map_eq_some_iff.mp (by decide +kernel)
  obtain ⟨hstatus, hdeadline⟩ := Prod.mk.inj hfacts
  have hdecided := (expiry_decided datedSale_dated _ ⟨"passer-by", none⟩ (Identifier.escrow 1) none).1
    quietSurroundings_inOrder
  simp only [he] at hdecided
  have hexpires := fun now => (hdecided (some now)).2.1
  have hrefused : ∀ now, ¬(Moment.wallInRange now.instant = true ∧ ∃ d, e.Lapsed now d) →
      ∃ f, expiry now = .error f ∧ e.Unlapsed now f := by
    intro now hnot
    cases hr : expiry now with
    | ok a => exact absurd ((hexpires now).iff.mp ⟨a, hr⟩) hnot
    | error f => exact ⟨f, rfl, ((hexpires now).refused f hr).1⟩
  refine ⟨((hdecided (some _)).2.2 _ hdeadline).1 (by decide), ?_,
    ((hdecided (some _)).2.2 _ hdeadline).2.1 (.inr hstatus) (by decide) (by decide), ?_⟩
  · obtain ⟨f, hf, -⟩ := hrefused ⟨61 * Moment.second - 1, none⟩ fun ⟨_, d, hlapsed⟩ => by
      obtain rfl := Option.some.inj (hdeadline.symm.trans hlapsed.deadline)
      exact absurd hlapsed.passed (by decide)
    exact ⟨f, hf⟩
  · have hrange : Moment.wallInRange
        (⟨Moment.wallEnd - Moment.second, some (-60 * Moment.second)⟩ : Moment).instant = false := by
      decide
    obtain ⟨f, hf, hunlapsed⟩ := hrefused _ fun h => Bool.false_ne_true (hrange.symm.trans h.1)
    rw [hf]
    cases hunlapsed with
    | closed hclosed => exact absurd (.inr hstatus) hclosed
    | noDeadline _ hnone =>
      rw [hdeadline] at hnone
      cases hnone
    | ahead _ _ hnow =>
      rw [hrange] at hnow
      cases hnow
    | outOfRange => rfl

end Custody

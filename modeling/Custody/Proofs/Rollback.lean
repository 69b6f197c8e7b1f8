import Custody.Proofs.Queue
import Custody.Proofs.Turn

/-!
# All or nothing

An operation that fails has not happened: its records, the ledger and the notifications are as they
were, and so are the locks. The last is a matter of single steps, so a task is followed through all
of them while nobody else moves; what it comes to is the operation as a whole.

> `alone_eq_perform`: the steps of a task on its own are the operation.
> `all_or_nothing`: an operation that fails leaves everything as it was.
-/

namespace Custody

namespace Machine

/-! ## A task on its own -/

section Alone

variable {jobs : String → Job} {m : Machine} {t : String} {clock : Int}

theorem alone_finished {r : Except Failure Answer} (h : m.stage t = .finished r) (n : Nat) :
    m.alone jobs t clock n = m := by
  induction n with
  | zero => rfl
  | succ n ih => rw [alone, step_finished h, ih]

/-- How a task on its own ends: with its result, the service that it leaves, a notification beside
those before it, and locks that nobody holds or waits for. -/
structure Ended (m : Machine) (t : String) (clock : Int) (before : Delivery)
    (result : Except Failure Answer) (v : Service) (note : Option Notification) : Prop where
  stage : m.stage t = .finished result
  service : m.service = v
  sent : m.sent =
    before.sent ++ (v.dispatcher.send v.brokenDispatcher (Moment.utc clock) note).sent
  queued : m.queued =
    before.queued ++ (v.dispatcher.send v.brokenDispatcher (Moment.utc clock) note).queued
  orderly : m.locks.Orderly
  free : ∀ k, m.locks.queue k = []

/-- The notifications so far. -/
def delivered (m : Machine) : Delivery := ⟨m.sent, m.queued, []⟩

theorem Ended.congr {before before' : Delivery} {result : Except Failure Answer} {v v' : Service}
    {note : Option Notification} (h : Ended m t clock before result v note)
    (hb : before = before') (hv : v = v') : Ended m t clock before' result v' note := by
  subst hb hv
  exact h

/-- Who has finished without a notification has ended. -/
theorem ended_finished {result : Except Failure Answer} (h : m.stage t = .finished result)
    (ho : m.locks.Orderly) (hf : ∀ k, m.locks.queue k = []) :
    Ended m t clock m.delivered result m.service none :=
  ⟨h, rfl, (List.append_nil _).symm, (List.append_nil _).symm, ho, hf⟩

theorem alone_telling {result : Except Failure Answer} {note : Option Notification}
    (h : m.stage t = .telling result note) (ho : m.locks.Orderly) (hf : ∀ k, m.locks.queue k = [])
    (n : Nat) :
    Ended (m.alone jobs t clock (n + 1)) t clock m.delivered result m.service note := by
  have hfin : (m.tell t (Moment.utc clock) result note).stage t = .finished result :=
    stage_put_self ..
  rw [alone, step_telling h, alone_finished hfin]
  exact ⟨hfin, rfl, rfl, rfl, ho, hf⟩

/-- Who is alone in the queue of one lock, with nobody in any other. -/
theorem holder_alone {key : String} (ho : m.locks.Orderly)
    (hq : ∀ k, m.locks.queue k = if k = key then [t] else []) :
    (m.locks.lock key).holder = some t ∧ ∀ k, (m.locks.lock k).holder = some t → k = key := by
  refine ⟨?_, fun k hk => ?_⟩
  · rw [ho.holder_eq_head?, hq, if_pos rfl]
    rfl
  · rw [ho.holder_eq_head?, hq] at hk
    by_contra hne
    rw [if_neg hne] at hk
    cases hk

/-- The holder of the only lock in use gives it back and notifies. -/
theorem alone_closed {x : Identifier} {result : Except Failure Answer} {note : Option Notification}
    (h : m.stage t = .closed x result note) (ho : m.locks.Orderly)
    (hq : ∀ k, m.locks.queue k = if k = x.text then [t] else []) (n : Nat) :
    Ended (m.alone jobs t clock (n + 2)) t clock m.delivered result m.service note := by
  obtain ⟨hheld, honly⟩ := holder_alone ho hq
  have hfree : ∀ k, (m.locks.step (.finish t)).queue k = [] := by
    intro k
    rw [FifoLocks.queue_finish ho hheld honly, hq, hq, if_pos rfl]
    split <;> rfl
  rw [alone, step_closed h]
  exact alone_telling (m := { m with locks := _ }.put t _) (stage_put_self ..)
    (ho.finish hheld honly) hfree n

theorem alone_concluded {w : Work} {e : Escrow} {k : Conclusion} {v : Service}
    {result : Except Failure Answer} {note : Option Notification}
    (h : m.stage t = .concluded w e k) (ho : m.locks.Orderly)
    (hq : ∀ k, m.locks.queue k = if k = w.escrow.text then [t] else [])
    (hk : k.commit m.service (Moment.utc clock) w e = (result, v, note)) (n : Nat) :
    Ended (m.alone jobs t clock (n + 3)) t clock m.delivered result v note := by
  rw [alone, step_concluded h, close, hk]
  exact alone_closed (m := { m with service := v }.put t _) (stage_put_self ..) ho hq n

theorem alone_reading {w : Work} {e : Escrow} {p : Plan} {v : Service}
    {result : Except Failure Answer} {note : Option Notification}
    (h : m.stage t = .reading w e p) (ho : m.locks.Orderly)
    (hq : ∀ k, m.locks.queue k = if k = w.escrow.text then [t] else [])
    (hk : (p.conclude m.service.ask).commit
      { m.service with
        ledger := Service.ledgerAfter m.service.ledger (p.conclude m.service.ask).asked }
      (Moment.utc clock) w e = (result, v, note)) (n : Nat) :
    Ended (m.alone jobs t clock (n + 4)) t clock m.delivered result v note := by
  rw [alone, step_reading h]
  exact alone_concluded (m := { m with service := _ }.put t _) (stage_put_self ..) ho hq hk n

end Alone

/-! ## The work of a task -/

section Alone

variable {jobs : String → Job} {m : Machine} {t : String} {clock : Int} {w : Work}
  {o : Outcome Answer}

/-- From the moment it has the lock, a task does its work as one transaction. -/
theorem alone_waiting (h : m.stage t = .waiting w) (ho : m.locks.Orderly)
    (hq : ∀ k, m.locks.queue k = if k = w.escrow.text then [t] else [])
    (hout : w.outcome { m.service.surroundings with now := Moment.utc clock }
      m.service.store m.service.counters = o) :
    Ended (m.alone jobs t clock 5) t clock m.delivered o.result
      { m.service with
        store := o.store, counters := o.counters
        ledger := Service.ledgerAfter m.service.ledger o.asked }
      o.announced := by
  subst hout
  -- What is left are its reading, the ledger, the end of the transaction, the lock, the notification.
  rw [alone, step_waiting h (holder_alone ho hq).1]
  cases he : m.service.store.escrow? w.escrow with
  | none =>
    simp only [read, he, Work.outcome, carryOut]
    exact alone_closed (m := m.put t _) (stage_put_self ..) ho hq 2
  | some e =>
    simp only [read, he]
    exact alone_reading (m := m.put t _) (stage_put_self ..) ho hq
      (Conclusion.commit_conclude _ he) 0

theorem alone_asking (h : m.stage t = .asking w) (ho : m.locks.Orderly)
    (hf : ∀ k, m.locks.queue k = [])
    (hout : w.outcome { m.service.surroundings with now := Moment.utc clock }
      m.service.store m.service.counters = o) :
    Ended (m.alone jobs t clock 6) t clock m.delivered o.result
      { m.service with
        store := o.store, counters := o.counters
        ledger := Service.ledgerAfter m.service.ledger o.asked }
      o.announced := by
  have hq : ∀ k, (m.locks.step (.hold t w.escrow.text)).queue k =
      if k = w.escrow.text then [t] else [] := by
    intro k
    rw [FifoLocks.queue_hold ho, hf, hf]
    rfl
  rw [alone, step_asking h]
  generalize hm : { m with locks := m.locks.step (.hold t w.escrow.text) }.put t (.waiting w) = m₁
  have hservice : m.service = m₁.service := by rw [← hm]; rfl
  have hdelivered : m.delivered = m₁.delivered := by rw [← hm]; rfl
  rw [hservice] at hout
  rw [hservice, hdelivered]
  refine alone_waiting ?_ ?_ ?_ hout <;> rw [← hm]
  · exact stage_put_self ..
  · exact ho.hold
  · exact hq

end Alone

/-! ## A whole operation -/

section Whole

variable {jobs : String → Job} {m : Machine} {t : String}

/-- A task that has ended with the outcome of its operation, log entries aside, is the operation. -/
theorem Ended.perform {m' : Machine} {o : Outcome Answer}
    (h : Ended m' t m.service.clock m.delivered o.result
      { m.service with
        store := o.store, counters := o.counters
        ledger := Service.ledgerAfter m.service.ledger o.asked }
      o.announced)
    (ho : ((jobs t).op.run m.service.surroundings (jobs t).caller m.service.store m.service.store
      m.service.counters).unlogged = o.unlogged) :
    let r := m.service.perform (jobs t).caller (jobs t).op
    m'.stage t = .finished r.1 ∧ m'.service = r.2.1 ∧ m'.sent = m.sent ++ r.2.2.sent ∧
      m'.queued = m.queued ++ r.2.2.queued ∧ ∀ key, m'.locks.isLocked key = false := by
  simp only [Service.perform, Service.performSeeing]
  generalize (jobs t).op.run m.service.surroundings (jobs t).caller m.service.store
    m.service.store m.service.counters = o' at ho
  obtain ⟨hresult, hstore, hcounters, hasked, hannounced⟩ := Outcome.eq_of_unlogged ho
  rw [hresult, hstore, hcounters, hasked, hannounced]
  refine ⟨h.stage, h.service, h.sent, h.queued, fun key => ?_⟩
  rw [FifoLocks.isLocked, h.orderly.holder_eq_head?, h.free]
  rfl

/-- The steps of a task on its own are its operation, and leave every lock free. -/
theorem alone_eq_perform (ho : m.locks.Orderly) (hf : ∀ k, m.locks.queue k = [])
    (hr : m.stage t = .ready) (hd : m.service.database = none) (hl : m.service.lease = none) :
    let r := m.service.perform (jobs t).caller (jobs t).op
    let m' := m.alone jobs t m.service.clock 7
    m'.stage t = .finished r.1 ∧ m'.service = r.2.1 ∧ m'.sent = m.sent ++ r.2.2.sent ∧
      m'.queued = m.queued ++ r.2.2.queued ∧ ∀ key, m'.locks.isLocked key = false := by
  intro r m'
  have hm' : m' = (m.begin t m.service.now (jobs t)).alone jobs t m.service.clock 6 := by
    show m.alone jobs t m.service.clock 7 = _
    rw [alone, step_ready hr]
    rfl
  -- What a task does first depends on what it is asked for; from there on the steps are known.
  unfold begin at hm'
  cases hop : (jobs t).op with
  | create n =>
    have hasked := createEscrow_asked m.service.surroundings (jobs t).caller n m.service.store
      m.service.counters
    have hsame : { m.service.surroundings with now := m.service.now } =
      m.service.surroundings := rfl
    simp only [hop, hsame] at hm'
    generalize hcr : createEscrow m.service.surroundings (jobs t).caller n m.service.store
      m.service.counters = o at hm' hasked
    refine Ended.perform (o := o.mapResult .escrow) ?_ (by rw [hop, ← hcr]; rfl)
    rw [hm']
    simp only [Outcome.mapResult, hasked]
    -- A creation takes no lock: it is over when it begins, and only tells of itself.
    generalize hm₁ : Machine.put _ t _ = m₁
    have hstage : m₁.stage t = .telling (o.result.map .escrow) o.announced := by
      rw [← hm₁]
      exact stage_put_self ..
    refine (alone_telling hstage ?_ ?_ 5).congr ?_ ?_ <;> rw [← hm₁]
    · exact ho
    · exact hf
    · rfl
    · rfl
  | task x a =>
    refine Ended.perform (o := (Work.ofTask m.service.now (jobs t).caller x a).outcome
      m.service.surroundings m.service.store m.service.counters) ?_ ?_
    · rw [hm', hop]
      exact alone_asking (m := m.put t _) (stage_put_self ..) ho hf rfl
    · rw [hop]
      exact Operation.run_task hl hd ..
  | confirm k =>
    have hdb : m.service.surroundings.database = none := hd
    rw [hop] at hm'
    cases hk : m.service.store.condition? k with
    | none =>
      refine Ended.perform (o := .refused m.service.store m.service.counters []
        (.escrow (.conditionNotFound k.text))) ?_ ?_
      · rw [hm']
        simp only [hk]
        rw [alone_finished (stage_put_self ..)]
        exact ended_finished (stage_put_self ..) ho hf
      · simp only [hop, Operation.run, confirmCondition, hdb, hk]
    | some q =>
      have hid : q.id = k := by simpa using List.find?_some hk
      subst hid
      -- A condition that is met already is answered at once, without the lock.
      by_cases hmet : q.met = true
      · refine Ended.perform (o := .settled m.service.store m.service.counters
          [alreadyMetLog q.id] (.condition q)) ?_ ?_
        · rw [hm']
          simp only [hk, if_pos hmet]
          rw [alone_finished (stage_put_self ..)]
          exact ended_finished (stage_put_self ..) ho hf
        · simp only [hop, Operation.run, confirmCondition, hdb, hk, if_pos hmet]
      · refine Ended.perform (o := (Work.ofConfirmation (jobs t).caller q).outcome
          m.service.surroundings m.service.store m.service.counters) ?_ ?_
        · rw [hm']
          simp only [hk, if_neg hmet]
          exact alone_asking (m := m.put t _) (stage_put_self ..) ho hf rfl
        · rw [hop]
          exact Operation.run_confirm hl hd _ hk (by simpa using hmet) _ _

end Whole

/-- Nobody holds a lock or waits for one, and a task has yet to begin. -/
structure Idle (m : Machine) (t : String) : Prop where
  orderly : m.locks.Orderly
  free : ∀ key, m.locks.queue key = []
  ready : m.stage t = .ready

theorem idle_start (v : Service) (t : String) : (start v).Idle t :=
  ⟨FifoLocks.orderly_empty, fun _ => rfl, rfl⟩

end Machine

/-! ## All or nothing -/

/-- An operation of any run that fails leaves the records, the ledger and the notifications as they
were. Where the locks are local, the steps of its task come to the same, and at their end every lock
is free. -/
theorem all_or_nothing {v : Service} (h : Reachable v) {by' : Caller} {op : Operation} {f : Failure}
    (hf : (v.perform by' op).1 = .error f) :
    ((v.perform by' op).2.1.store = v.store ∧ (v.perform by' op).2.1.ledger = v.ledger ∧
      (v.perform by' op).2.2.sent = [] ∧ (v.perform by' op).2.2.queued = [] ∧
      (v.perform by' op).2.2.settled = []) ∧
    (v.database = none → v.lease = none →
      ∀ (jobs : String → Job) (m : Machine) (t : String), m.service = v → m.Idle t →
        jobs t = ⟨by', op⟩ →
        let m' := m.alone jobs t v.clock 7
        m'.stage t = .finished (.error f) ∧ m'.service.store = v.store ∧
          m'.service.ledger = v.ledger ∧ m'.sent = m.sent ∧ m'.queued = m.queued ∧
          ∀ key, m'.locks.isLocked key = false) := by
  have herror := Service.perform_error h.kept.sound hf
  refine ⟨herror, fun hd hl jobs m t hv hm hjob => ?_⟩
  obtain ⟨hstore, hledger, hsent, hqueued, -⟩ := herror
  subst hv
  have halone := @Machine.alone_eq_perform jobs m t hm.orderly hm.free hm.ready hd hl
  simp only [hjob] at halone
  obtain ⟨hstage, hservice, hs, hq, hfree⟩ := halone
  rw [hf] at hstage
  rw [hsent, List.append_nil] at hs
  rw [hqueued, List.append_nil] at hq
  exact ⟨hstage, by rw [hservice, hstore], by rw [hservice, hledger], hs, hq, hfree⟩

/-- The sale when one condition is met and the ledger does not answer. -/
def unansweredService : Service :=
  soldService.run
    [.operation ⟨"seller", none⟩ (.confirm (Identifier.condition 1)),
      .ledgerFails (some (.breakdown "no answer"))]

/-- The last confirmation of the sale fails then, and nothing is left of it. -/
theorem all_or_nothing_unansweredService :
    ∃ f, (unansweredService.perform ⟨"buyer", none⟩ (.confirm (Identifier.condition 2))).1 =
        .error f ∧
      (unansweredService.perform ⟨"buyer", none⟩ (.confirm (Identifier.condition 2))).2.1.store =
        unansweredService.store ∧
      let m' := (Machine.start unansweredService).alone
        (fun _ => ⟨⟨"buyer", none⟩, .confirm (Identifier.condition 2)⟩) "a"
        unansweredService.clock 7
      m'.service.store = unansweredService.store ∧ ∀ key, m'.locks.isLocked key = false := by
  have hreachable : Reachable unansweredService := soldService_reachable.run _
  have hfails : (unansweredService.perform ⟨"buyer", none⟩
      (.confirm (Identifier.condition 2))).1.isOk = false := by decide +kernel
  cases hf : (unansweredService.perform ⟨"buyer", none⟩ (.confirm (Identifier.condition 2))).1 with
  | ok a =>
    rw [hf] at hfails
    cases hfails
  | error f =>
    obtain ⟨hwhole, hsteps⟩ := all_or_nothing hreachable hf
    obtain ⟨-, hstore, -, -, -, hfree⟩ := hsteps (by decide +kernel) (by decide +kernel)
      (fun _ => ⟨⟨"buyer", none⟩, .confirm (Identifier.condition 2)⟩)
      (Machine.start unansweredService) "a" rfl (Machine.idle_start _ _) rfl
    exact ⟨f, rfl, hwhole.1, hstore, hfree⟩

end Custody

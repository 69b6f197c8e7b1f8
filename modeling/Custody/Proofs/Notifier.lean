import Custody.Proofs.Mirror
import Custody.Service.Interleaving

/-!
# A broken dispatcher

The dispatcher is the last to hear of an operation: the transaction is over, the lock is free, and
the answer is settled. So whatever goes wrong there stays there. Of two runs that differ in when the
dispatcher breaks down and why, nobody can tell from answers, records or payments which is which,
and the dispatcher itself is given the same.

This holds of operations one at a time, and of operations whose steps are mixed in any order. For the
latter the machine without the dispatcher's doing, `Machine.still`, is a machine on which every step
does the same; and what a machine has sent and queued is what the dispatcher made of what it was given.

> `Service.mended_run`: a run goes as it goes with a dispatcher that works.
> `Machine.still_step`, `Machine.still_run`: so do the steps of many tasks.
> `Machine.delivered_step`, `Machine.delivered_run`: what arrives of them.
> `broken_notifier_harmless`: both, with what is given to the dispatcher.
-/

namespace Custody

/-! ## One operation at a time -/

/-- Whether something happens to the dispatcher alone. -/
def Happening.isNotifier : Happening → Bool
  | .dispatcherBreaks _ => true
  | _ => false

/-- What happens beside breakdowns and repairs of the dispatcher. -/
def undisturbed (hs : List Happening) : List Happening := hs.filter fun a => !a.isNotifier

namespace Service

/-- The service with a dispatcher that works. -/
def mended (v : Service) : Service := { v with brokenDispatcher := none }

theorem mended_after {v : Service} {a : Happening} (ha : a.isNotifier = false) :
    (v.after a).mended = v.mended.after a := by
  cases a with
  | dispatcherBreaks r => cases ha
  | _ => rfl

/-- A step is answered and tells and pays the same whether the dispatcher works or not. -/
theorem step_mended (v : Service) (a : Happening) :
    v.answer a = v.mended.answer a ∧ v.tells a = v.mended.tells a ∧
      (v.seen a).settled = (v.mended.seen a).settled := by
  cases a with
  | operation by' op => exact ⟨rfl, rfl, rfl⟩
  | _ => exact ⟨rfl, rfl, rfl⟩

/-- A run goes as it goes with a dispatcher that works all the time. -/
theorem mended_run (v : Service) (hs : List Happening) :
    (v.run hs).mended = v.mended.run (undisturbed hs) ∧
      v.answers hs = v.mended.answers (undisturbed hs) ∧
      v.told hs = v.mended.told (undisturbed hs) ∧
      (v.shown hs).settled = (v.mended.shown (undisturbed hs)).settled := by
  induction hs generalizing v with
  | nil => exact ⟨rfl, rfl, rfl, rfl⟩
  | cons a hs ih =>
    obtain ⟨hrun, hanswers, htold, hsettled⟩ := ih (v.after a)
    cases ha : a.isNotifier with
    | true =>
      -- The dispatcher breaks down or is repaired, and there is nothing to see of it.
      have hskip : undisturbed (a :: hs) = undisturbed hs :=
        List.filter_cons_of_neg (by simp [ha])
      rw [hskip]
      cases a with
      | dispatcherBreaks r => exact ⟨hrun, hanswers, htold, hsettled⟩
      | _ => cases ha
    | false =>
      have hkeep : undisturbed (a :: hs) = a :: undisturbed hs :=
        List.filter_cons_of_pos (by simp [ha])
      obtain ⟨hanswer, htells, hseen⟩ := step_mended v a
      rw [mended_after ha] at hrun hanswers htold hsettled
      rw [hkeep]
      refine ⟨hrun, ?_, ?_, ?_⟩
      · rw [answers, answers, hanswer, hanswers]
      · rw [told, told, htells, htold]
      · exact congrArg₂ (· ++ ·) hseen hsettled

/-- What is announced is dispatched: it arrives, or there is an entry in the log that it did not. -/
theorem dispatched {v : Service} {by' : Caller} {op : Operation} {n : Notification}
    (h : v.announced by' op = some n) :
    (∃ d, v.dispatcher.dispatch v.brokenDispatcher v.now n = .ok d ∧
        (v.perform by' op).2.2.Delivers d) ∨
      ∃ r, v.dispatcher.dispatch v.brokenDispatcher v.now n = .error r ∧
        .warning "notification.dispatch_failed" [("event_name", .text n.event), ("error", .text r)] ∈
          (v.perform by' op).2.2.log := by
  have hdelivers := v.delivers_perform by' op
  rw [h] at hdelivers
  cases hd : v.dispatcher.dispatch v.brokenDispatcher v.now n with
  | ok d =>
    rw [delivery, Dispatcher.send_log_of_ok hd] at hdelivers
    exact .inl ⟨d, rfl, hdelivers⟩
  | error r =>
    refine .inr ⟨r, rfl, ?_⟩
    have hlog : (v.perform by' op).2.2.log =
      (op.run v.surroundings by' v.store v.store v.counters).log ++
        (op.run v.surroundings by' v.store v.store v.counters).closing ++
          (v.delivery (v.announced by' op)).log := rfl
    rw [hlog, h, delivery, Dispatcher.send, hd]
    exact List.mem_append_right _ (List.mem_singleton.mpr rfl)

end Service

/-! ## Many at once -/

namespace Machine

/-- The machine with the dispatcher out of order for a reason, or in order. -/
def disturbed (m : Machine) (reason : Option String) : Machine :=
  { m with service := { m.service with brokenDispatcher := reason } }

/-- The machine without what is the dispatcher's doing. -/
def still (m : Machine) : Machine := ⟨m.service.mended, m.locks, m.stage, [], []⟩

/-- What a step of a task gives to the dispatcher, and when. -/
def tells (m : Machine) (t : String) (clock : Int) : List (Moment × Notification) :=
  match m.stage t with
  | .telling _ note => note.toList.map fun n => (Moment.utc clock, n)
  | _ => []

/-- What steps of tasks, one after another, give to the dispatcher. -/
def told (jobs : String → Job) (m : Machine) : List (String × Int) → List (Moment × Notification)
  | [] => []
  | (t, clock) :: rest => m.tells t clock ++ (m.step jobs t clock).told jobs rest

/-- The machine after steps of tasks, and what they gave to the dispatcher, which may break down or be
repaired before each step; with each the reason why it was out of order, if it was. -/
def disturbedRun (jobs : String → Job) (m : Machine) :
    List (Option String × String × Int) → Machine × List (Option String × Moment × Notification)
  | [] => (m, [])
  | (reason, t, clock) :: rest =>
    let r := ((m.disturbed reason).step jobs t clock).disturbedRun jobs rest
    (r.1, (m.tells t clock).map (reason, ·) ++ r.2)

/-- What one machine has sent and queued beyond another is what the dispatcher made of this. -/
structure Delivered (m n : Machine) (given : List (Option String × Moment × Notification)) : Prop where
  sent : n.sent = m.sent ++
    given.flatMap fun g => (m.service.dispatcher.send g.1 g.2.1 (some g.2.2)).sent
  queued : n.queued = m.queued ++
    given.flatMap fun g => (m.service.dispatcher.send g.1 g.2.1 (some g.2.2)).queued

variable {jobs : String → Job}

/-! ### What arrives -/

theorem Delivered.refl (m : Machine) : m.Delivered m [] :=
  ⟨(List.append_nil _).symm, (List.append_nil _).symm⟩

/-- What has arrived in between is followed by what arrives after it. -/
theorem Delivered.trans {m n k : Machine} {gs hs : List (Option String × Moment × Notification)}
    (h : m.Delivered n gs) (hd : n.service.dispatcher = m.service.dispatcher)
    (h' : n.Delivered k hs) : m.Delivered k (gs ++ hs) where
  sent := by rw [h'.sent, h.sent, hd, List.flatMap_append, List.append_assoc]
  queued := by rw [h'.queued, h.queued, hd, List.flatMap_append, List.append_assoc]

/-- One machine has the dispatcher of another, and has sent and queued the same. -/
structure Silent (m n : Machine) : Prop where
  dispatcher : n.service.dispatcher = m.service.dispatcher
  brokenDispatcher : n.service.brokenDispatcher = m.service.brokenDispatcher
  sent : n.sent = m.sent
  queued : n.queued = m.queued

theorem silent_begin (m : Machine) (t : String) (now : Moment) (j : Job) :
    m.Silent (m.begin t now j) := by
  unfold begin
  cases j.op with
  | create n => exact ⟨rfl, rfl, rfl, rfl⟩
  | task x a => exact ⟨rfl, rfl, rfl, rfl⟩
  | confirm k =>
    dsimp only
    split
    · exact ⟨rfl, rfl, rfl, rfl⟩
    · split <;> exact ⟨rfl, rfl, rfl, rfl⟩

theorem silent_close (m : Machine) (t : String) (now : Moment) (w : Work) (e : Escrow)
    (k : Conclusion) : m.Silent (m.close t now w e k) := by
  unfold close Conclusion.commit
  dsimp only
  split
  · exact ⟨rfl, rfl, rfl, rfl⟩
  · split <;> exact ⟨rfl, rfl, rfl, rfl⟩

/-- No step has to do with the dispatcher but one that tells of a task. -/
theorem silent_step (jobs : String → Job) (m : Machine) (t : String) (clock : Int)
    (h : ∀ r note, m.stage t ≠ .telling r note) : m.Silent (m.step jobs t clock) := by
  have same : m.Silent m := ⟨rfl, rfl, rfl, rfl⟩
  cases hs : m.stage t with
  | ready =>
    rw [step_ready hs]
    exact silent_begin ..
  | asking w =>
    rw [step_asking hs]
    exact ⟨rfl, rfl, rfl, rfl⟩
  | waiting w =>
    by_cases hl : (m.locks.lock w.escrow.text).holder = some t
    · rw [step_waiting hs hl, read]
      split <;> exact ⟨rfl, rfl, rfl, rfl⟩
    · rw [step_blocked hs hl]
      exact same
  | reading w e p =>
    rw [step_reading hs]
    exact ⟨rfl, rfl, rfl, rfl⟩
  | concluded w e k =>
    rw [step_concluded hs]
    exact silent_close ..
  | closed x r note =>
    rw [step_closed hs]
    exact ⟨rfl, rfl, rfl, rfl⟩
  | telling r note => exact absurd hs (h r note)
  | finished r =>
    rw [step_finished hs]
    exact same

/-- A step leaves it alone where notifications go, and whether they arrive. -/
theorem dispatcher_step (jobs : String → Job) (m : Machine) (t : String) (clock : Int) :
    (m.step jobs t clock).service.dispatcher = m.service.dispatcher ∧
      (m.step jobs t clock).service.brokenDispatcher = m.service.brokenDispatcher := by
  by_cases h : ∃ r note, m.stage t = .telling r note
  · obtain ⟨r, note, h⟩ := h
    rw [step_telling h]
    exact ⟨rfl, rfl⟩
  · have hsilent := silent_step jobs m t clock fun r note hr => h ⟨r, note, hr⟩
    exact ⟨hsilent.dispatcher, hsilent.brokenDispatcher⟩

/-- What a step sends and queues is what the dispatcher makes of what the step gives to it. -/
theorem delivered_step (m : Machine) (t : String) (clock : Int) :
    m.Delivered (m.step jobs t clock)
      ((m.tells t clock).map (m.service.brokenDispatcher, ·)) := by
  by_cases h : ∃ r note, m.stage t = .telling r note
  · obtain ⟨r, note, h⟩ := h
    rw [step_telling h, tells, h]
    cases note with
    | none => exact ⟨rfl, rfl⟩
    | some n => exact ⟨by simp [tell, put], by simp [tell, put]⟩
  · have hsilent := silent_step jobs m t clock fun r note hr => h ⟨r, note, hr⟩
    have hnothing : m.tells t clock = [] := by
      unfold tells
      split
      next r note hr => exact absurd ⟨r, note, hr⟩ h
      next => rfl
    rw [hnothing]
    exact ⟨by simp [hsilent.sent], by simp [hsilent.queued]⟩

/-- So it is with many steps. -/
theorem delivered_run (jobs : String → Job) (m : Machine) (schedule : List (String × Int)) :
    m.Delivered (m.run jobs schedule)
      ((m.told jobs schedule).map (m.service.brokenDispatcher, ·)) := by
  induction schedule generalizing m with
  | nil => exact Delivered.refl m
  | cons a schedule ih =>
    obtain ⟨t, clock⟩ := a
    obtain ⟨hd, hb⟩ := dispatcher_step jobs m t clock
    have hrest := ih (m.step jobs t clock)
    rw [hb] at hrest
    rw [told, List.map_append]
    exact (delivered_step m t clock).trans hd hrest

/-- Also while the dispatcher breaks down and is repaired. -/
theorem delivered_disturbedRun (jobs : String → Job) (m : Machine)
    (schedule : List (Option String × String × Int)) :
    m.Delivered (m.disturbedRun jobs schedule).1 (m.disturbedRun jobs schedule).2 := by
  induction schedule generalizing m with
  | nil => exact Delivered.refl m
  | cons a schedule ih =>
    obtain ⟨reason, t, clock⟩ := a
    obtain ⟨hd, -⟩ := dispatcher_step jobs (m.disturbed reason) t clock
    have hstep : m.Delivered ((m.disturbed reason).step jobs t clock)
        ((m.tells t clock).map (reason, ·)) :=
      ⟨(delivered_step (m.disturbed reason) t clock).sent,
        (delivered_step (m.disturbed reason) t clock).queued⟩
    exact hstep.trans hd (ih _)

/-! ### Without the dispatcher -/

/-- A commit has the same result whether the dispatcher works or not. -/
theorem commit_mended (k : Conclusion) (v : Service) (now : Moment) (w : Work) (e : Escrow) :
    (k.commit v.mended now w e).1 = (k.commit v now w e).1 ∧
      (k.commit v.mended now w e).2.1 = (k.commit v now w e).2.1.mended ∧
      (k.commit v.mended now w e).2.2 = (k.commit v now w e).2.2 := by
  unfold Conclusion.commit
  cases k.verdict with
  | error f => exact ⟨rfl, rfl, rfl⟩
  | ok _ =>
    have hstore : v.mended.store = v.store := rfl
    have hcounters : v.mended.counters = v.counters := rfl
    simp only [hstore, hcounters]
    cases v.store.apply now w.escrow (v.counters.events + 1) k.writes with
    | error f => exact ⟨rfl, rfl, rfl⟩
    | ok s => exact ⟨rfl, rfl, rfl⟩

/-- A job begins the same whether the dispatcher works or not. -/
theorem still_begin (m : Machine) (t : String) (now : Moment) (j : Job) :
    (m.begin t now j).still = (m.still.begin t now j).still := by
  unfold begin
  have hcondition : ∀ k, m.still.service.store.condition? k = m.service.store.condition? k :=
    fun _ => rfl
  cases j.op with
  | create n => rfl
  | task x a => rfl
  | confirm k =>
    simp only [hcondition]
    cases m.service.store.condition? k with
    | none => rfl
    | some c =>
      simp only
      split <;> rfl

/-- A step does the same without what is the dispatcher's doing. -/
theorem still_step (m : Machine) (t : String) (clock : Int) :
    (m.step jobs t clock).still = (m.still.step jobs t clock).still := by
  have hstage : m.still.stage t = m.stage t := rfl
  -- No stage looks at what the dispatcher has done.
  cases h : m.stage t with
  | ready =>
    rw [step_ready h, step_ready (hstage.trans h)]
    exact still_begin ..
  | asking w =>
    rw [step_asking h, step_asking (hstage.trans h)]
    rfl
  | waiting w =>
    by_cases hl : (m.locks.lock w.escrow.text).holder = some t
    · rw [step_waiting h hl, step_waiting (hstage.trans h) hl, read, read]
      have hescrow : m.still.service.store.escrow? w.escrow = m.service.store.escrow? w.escrow :=
        rfl
      rw [hescrow]
      cases m.service.store.escrow? w.escrow <;> rfl
    · rw [step_blocked h hl, step_blocked (hstage.trans h) hl]
      rfl
  | reading w e p =>
    rw [step_reading h, step_reading (hstage.trans h)]
    rfl
  | concluded w e k =>
    rw [step_concluded h, step_concluded (hstage.trans h), close, close]
    obtain ⟨hresult, hservice, hnote⟩ := commit_mended k m.service (Moment.utc clock) w e
    have hmended : m.still.service = m.service.mended := rfl
    simp only [hmended, hresult, hservice, hnote]
    rfl
  | closed x r note =>
    rw [step_closed h, step_closed (hstage.trans h)]
    rfl
  | telling r note =>
    rw [step_telling h, step_telling (hstage.trans h)]
    rfl
  | finished r =>
    rw [step_finished h, step_finished (hstage.trans h)]
    rfl

/-- Machines that differ in what is the dispatcher's doing go on to do so. -/
theorem still_step_congr {m n : Machine} (h : m.still = n.still) (t : String) (clock : Int) :
    (m.step jobs t clock).still = (n.step jobs t clock).still := by
  rw [still_step, h, ← still_step]

theorem tells_congr {m n : Machine} (h : m.still = n.still) (t : String) (clock : Int) :
    m.tells t clock = n.tells t clock := by
  have hstage : m.still.stage = n.still.stage := congrArg Machine.stage h
  have hstage : m.stage = n.stage := hstage
  unfold tells
  rw [hstage]

/-- Steps of many tasks come to the same, and give the same to the dispatcher, whenever it breaks
down. -/
theorem still_run (jobs : String → Job) {m n : Machine} (h : m.still = n.still)
    (schedule : List (Option String × String × Int)) :
    (m.disturbedRun jobs schedule).1.still = (n.run jobs (schedule.map (·.2))).still ∧
      (m.disturbedRun jobs schedule).2.map (·.2) = n.told jobs (schedule.map (·.2)) := by
  induction schedule generalizing m n with
  | nil => exact ⟨h, rfl⟩
  | cons a schedule ih =>
    obtain ⟨reason, t, clock⟩ := a
    obtain ⟨hstill, htold⟩ := ih (still_step_congr (m := m.disturbed reason) h t clock)
    refine ⟨hstill, ?_⟩
    show ((m.tells t clock).map (reason, ·) ++ _).map (·.2) = _
    rw [List.map_append, List.map_map, htold]
    exact congrArg (· ++ _) ((List.map_id _).trans (tells_congr h t clock))

end Machine

/-- A broken dispatcher changes nothing else. In every run it makes no difference to the answers, the
records and the payments when it breaks down, and each notification that it would have been given
it is given, and at the same time; it arrives, or the log says that it did not. The same is true of
operations whose steps are mixed in any order: results, locks, records and what is given to the
dispatcher are as they are without breakdowns, and either way there is sent and queued what the
dispatcher makes of what it is given. -/
theorem broken_notifier_harmless :
    (∀ (v : Service) (hs : List Happening),
      v.answers hs = v.mended.answers (undisturbed hs) ∧
      (v.run hs).mended = v.mended.run (undisturbed hs) ∧
      (v.shown hs).settled = (v.mended.shown (undisturbed hs)).settled ∧
      v.told hs = v.mended.told (undisturbed hs) ∧
      ∀ u by' op n, Did v hs u by' op → u.announced by' op = some n →
        (∃ d, u.dispatcher.dispatch u.brokenDispatcher u.now n = .ok d ∧
          (u.perform by' op).2.2.Delivers d) ∨
        ∃ r, u.dispatcher.dispatch u.brokenDispatcher u.now n = .error r ∧
          .warning "notification.dispatch_failed"
            [("event_name", .text n.event), ("error", .text r)] ∈ (u.perform by' op).2.2.log) ∧
    ∀ (jobs : String → Job) (m : Machine) (schedule : List (Option String × String × Int)),
      let r := m.disturbedRun jobs schedule
      let n := (m.disturbed none).run jobs (schedule.map (·.2))
      let given := (m.disturbed none).told jobs (schedule.map (·.2))
      r.1.stage = n.stage ∧ r.1.locks = n.locks ∧ r.1.service.mended = n.service.mended ∧
        r.2.map (·.2) = given ∧ m.Delivered r.1 r.2 ∧ m.Delivered n (given.map (none, ·)) := by
  refine ⟨fun v hs => ?_, fun jobs m schedule => ?_⟩
  · obtain ⟨hrun, hanswers, htold, hsettled⟩ := v.mended_run hs
    exact ⟨hanswers, hrun, hsettled, htold, fun u by' op n _ hn => Service.dispatched hn⟩
  · have hsame : m.still = (m.disturbed none).still := rfl
    obtain ⟨hstill, htold⟩ := Machine.still_run jobs hsame schedule
    obtain ⟨hservice, hlocks, hstage, -, -⟩ := Machine.mk.inj hstill
    have hrun := Machine.delivered_run jobs (m.disturbed none) (schedule.map (·.2))
    exact ⟨hstage, hlocks, hservice, htold, Machine.delivered_disturbedRun jobs m schedule,
      ⟨hrun.sent, hrun.queued⟩⟩

/-- The sale, while the dispatcher is out of order from the beginning. -/
def unheardDeal : List Happening := .dispatcherBreaks (some "queue is full") :: closedDeal

/-- Nobody heard of the sale, and it went as it would have gone. -/
theorem broken_notifier_harmless_unheardDeal :
    (emptyService.shown unheardDeal).sent.length = 0 ∧
      (emptyService.shown closedDeal).sent.length = 4 ∧
      emptyService.answers unheardDeal = emptyService.answers closedDeal ∧
      (emptyService.run unheardDeal).mended = emptyService.run closedDeal ∧
      emptyService.told unheardDeal = emptyService.told closedDeal := by
  have hsame : undisturbed unheardDeal = closedDeal := by
    simp [undisturbed, unheardDeal, closedDeal, takenUp, Happening.isNotifier]
  have hmended : emptyService.mended = emptyService := rfl
  obtain ⟨hanswers, hrun, -, htold, -⟩ := broken_notifier_harmless.1 emptyService unheardDeal
  rw [hsame, hmended] at hanswers hrun htold
  exact ⟨by decide +kernel, by decide +kernel, hanswers, hrun, htold⟩

end Custody

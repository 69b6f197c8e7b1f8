import Custody.Service
import Custody.Lock.Fifo

/-!
# Operations at the same time

Many tasks work on one service at once, each on an operation of its own, and share the locks of one
process. A task goes on by single steps, and between any two of them the others may go on: it asks
for the lock of its escrow and waits, reads, hears from the ledger, ends its transaction, gives the
lock back, and notifies.

    begin → ask for the lock → wait → read → hear from the ledger → commit or roll back
          → give the lock back → notify

A confirmation looks its condition up at its beginning, without the lock, and may be over then.
Creating an escrow takes no lock. Each step has a reading of the clock of its own.

> `Machine.run`: the steps of tasks in any order.
> `Service.serially`: the same operations one at a time.
-/

namespace Custody

/-- An operation that somebody asks for. -/
structure Job where
  caller : Caller
  op : Operation

/-- Work on an escrow, as it is known before the lock is asked for: the plan for the record as it
will be read, and the answer that is made of the store and of the record in the end. -/
structure Work where
  escrow : Identifier
  plan : Escrow → List Condition → Plan
  answer : Store → Escrow → Answer

namespace Work

/-- The work of a task that begins now. -/
def ofTask (now : Moment) (by' : Caller) (escrow : Identifier) (t : Task) : Work :=
  ⟨escrow, fun e cs => t.plan now by' e cs, fun _ e => .escrow e⟩

/-- The work of confirming a condition that was seen open. -/
def ofConfirmation (by' : Caller) (seen : Condition) : Work :=
  ⟨seen.escrow, planConfirmation seen.id by',
    fun s _ => .condition ((s.condition? seen.id).getD seen)⟩

/-- What work comes to as one transaction. -/
def outcome (w : Work) (env : Surroundings) (s : Store) (c : Counters) : Outcome Answer :=
  let o := carryOut env w.escrow w.plan s c
  o.mapResult (w.answer o.store)

end Work

/-! ## Operations as work -/

/-- An outcome without its log. -/
def Outcome.unlogged {α : Type} (o : Outcome α) : Outcome α := { o with log := [], closing := [] }

/-- A local lock adds nothing to work but log entries. -/
theorem underLock_unlogged {α : Type} {env : Surroundings} (hl : env.lease = none)
    (hd : env.database = none) (x : Identifier) (work : Store → Counters → Outcome α) (s : Store)
    (c : Counters) : (underLock env x work s c).unlogged = (work s c).unlogged := by
  unfold underLock Outcome.unlogged
  simp only [hl, hd, Option.any_none]
  rfl

/-- A task is its work. -/
theorem Operation.run_task {env : Surroundings} (hl : env.lease = none) (hd : env.database = none)
    (by' : Caller) (x : Identifier) (a : Task) (seen s : Store) (c : Counters) :
    ((Operation.task x a).run env by' seen s c).unlogged =
      ((Work.ofTask env.now by' x a).outcome env s c).unlogged := by
  have hu := underLock_unlogged hl hd x (carryOut env x fun e cs => a.plan env.now by' e cs) s c
  have hmap := congrArg (fun o : Outcome Escrow => (o.mapResult Answer.escrow).unlogged) hu
  exact hmap

/-- A confirmation of a condition that was seen open is its work. -/
theorem Operation.run_confirm {env : Surroundings} (hl : env.lease = none)
    (hd : env.database = none) (by' : Caller) {q : Condition} {seen : Store}
    (hq : seen.condition? q.id = some q) (hm : q.met = false) (s : Store) (c : Counters) :
    ((Operation.confirm q.id).run env by' seen s c).unlogged =
      ((Work.ofConfirmation by' q).outcome env s c).unlogged := by
  have hu := underLock_unlogged hl hd q.escrow
    (carryOut env q.escrow (planConfirmation q.id by')) s c
  have hrun : (Operation.confirm q.id).run env by' seen s c =
      (let o := underLock env q.escrow (carryOut env q.escrow (planConfirmation q.id by')) s c
      o.mapResult fun _ => .condition ((o.store.condition? q.id).getD q)) := by
    simp only [run, confirmCondition, hd, hq, hm]
    rfl
  rw [hrun]
  have hmap := congrArg (fun o : Outcome Escrow => (o.mapResult fun _ =>
    Answer.condition ((o.store.condition? q.id).getD q)).unlogged) hu
  exact hmap

/-! ## Tasks -/

/-- The end of a transaction on a record: the writes are committed, or nothing is kept. What comes
of it is the result, the service, and the notification to send. -/
def Conclusion.commit (k : Conclusion) (v : Service) (now : Moment) (w : Work) (e : Escrow) :
    Except Failure Answer × Service × Option Notification :=
  let c := v.counters
  let v := { v with counters := { c with events := c.events + k.writes.drafts.length } }
  match k.verdict with
  | .error f => (.error f, v, none)
  | .ok () =>
    match v.store.apply now w.escrow (c.events + 1) k.writes with
    | .error f => (.error (.store f), v, none)
    | .ok s =>
      let e := k.writes.view now e
      (.ok (w.answer s e), { v with store := s },
        k.writes.announcement.map fun (a : Announcement) => a.about e)

/-- How far a task has come. From `reading` to `closed` it holds the lock. -/
inductive Stage where
  | ready
  | asking (w : Work)
  | waiting (w : Work)
  | reading (w : Work) (e : Escrow) (p : Plan)
  | concluded (w : Work) (e : Escrow) (k : Conclusion)
  | closed (escrow : Identifier) (result : Except Failure Answer) (note : Option Notification)
  | telling (result : Except Failure Answer) (note : Option Notification)
  | finished (result : Except Failure Answer)

/-- The result of a task that has finished. -/
def Stage.result? : Stage → Option (Except Failure Answer)
  | .finished r => some r
  | _ => none

/-- The service, the locks, and the tasks. `sent` and `queued` are the notifications so far. -/
structure Machine where
  service : Service
  locks : FifoLocks
  stage : String → Stage
  sent : List Notification
  queued : List (String × String)

namespace Machine

/-- Nobody has begun. -/
def start (v : Service) : Machine := ⟨v, FifoLocks.empty, fun _ => .ready, [], []⟩

/-- The machine with a task at a stage. -/
def put (m : Machine) (t : String) (s : Stage) : Machine :=
  { m with stage := fun u => if u = t then s else m.stage u }

/-- The beginning of a job. -/
def begin (m : Machine) (t : String) (now : Moment) (j : Job) : Machine :=
  match j.op with
  | .create n =>
    let o := createEscrow { m.service.surroundings with now := now } j.caller n m.service.store
      m.service.counters
    { m with service := { m.service with store := o.store, counters := o.counters } }.put t
      (.telling (o.result.map .escrow) o.announced)
  | .task x a => m.put t (.asking (.ofTask now j.caller x a))
  | .confirm k =>
    match m.service.store.condition? k with
    | none => m.put t (.finished (.error (.escrow (.conditionNotFound k.text))))
    | some c =>
      if c.met then m.put t (.finished (.ok (.condition c)))
      else m.put t (.asking (.ofConfirmation j.caller c))

/-- The record is read in the transaction, once the lock is held. -/
def read (m : Machine) (t : String) (w : Work) : Machine :=
  match m.service.store.escrow? w.escrow with
  | none => m.put t (.closed w.escrow (.error (.escrow (.escrowNotFound w.escrow.text))) none)
  | some e => m.put t (.reading w e (w.plan e (m.service.store.conditionsOf w.escrow)))

/-- The plan is carried to its end, with the ledger where it is asked. -/
def conclude (m : Machine) (t : String) (w : Work) (e : Escrow) (p : Plan) : Machine :=
  let k := p.conclude m.service.ask
  { m with service := { m.service with
      ledger := Service.ledgerAfter m.service.ledger k.asked } }.put t (.concluded w e k)

/-- The transaction ends. -/
def close (m : Machine) (t : String) (now : Moment) (w : Work) (e : Escrow) (k : Conclusion) :
    Machine :=
  let r := k.commit m.service now w e
  { m with service := r.2.1 }.put t (.closed w.escrow r.1 r.2.2)

/-- The notification is sent. -/
def tell (m : Machine) (t : String) (now : Moment) (result : Except Failure Answer)
    (note : Option Notification) : Machine :=
  let d := m.service.dispatcher.send m.service.brokenDispatcher now note
  { m with sent := m.sent ++ d.sent, queued := m.queued ++ d.queued }.put t (.finished result)

/-- The next step of a task, at a reading of the clock. A task that waits for the lock, or has
finished, does not move. -/
def step (jobs : String → Job) (m : Machine) (t : String) (clock : Int) : Machine :=
  let now := Moment.utc clock
  match m.stage t with
  | .ready => m.begin t now (jobs t)
  | .asking w => { m with locks := m.locks.step (.hold t w.escrow.text) }.put t (.waiting w)
  | .waiting w => if (m.locks.lock w.escrow.text).holder = some t then m.read t w else m
  | .reading w e p => m.conclude t w e p
  | .concluded w e k => m.close t now w e k
  | .closed _ r note => { m with locks := m.locks.step (.finish t) }.put t (.telling r note)
  | .telling r note => m.tell t now r note
  | .finished _ => m

/-- The machine after steps of tasks, one after another. -/
def run (jobs : String → Job) (m : Machine) (schedule : List (String × Int)) : Machine :=
  schedule.foldl (fun m a => m.step jobs a.1 a.2) m

/-- The machine after a number of steps of one task, while the clock stands still. -/
def alone (jobs : String → Job) (m : Machine) (t : String) (clock : Int) : Nat → Machine
  | 0 => m
  | n + 1 => (m.step jobs t clock).alone jobs t clock n

/-! ### Laws -/

section Laws

variable {jobs : String → Job} {m : Machine} {t : String} {clock : Int}

@[simp]
theorem stage_put_self (m : Machine) (t : String) (s : Stage) : (m.put t s).stage t = s := by
  simp [put]

@[simp]
theorem locks_put (m : Machine) (t : String) (s : Stage) : (m.put t s).locks = m.locks := rfl

theorem stage_put_of_ne {u : String} {s : Stage} (h : u ≠ t) :
    (m.put t s).stage u = m.stage u := by
  simp [put, h]

theorem step_ready (h : m.stage t = .ready) :
    m.step jobs t clock = m.begin t (Moment.utc clock) (jobs t) := by
  simp only [step, h]

theorem step_asking {w : Work} (h : m.stage t = .asking w) :
    m.step jobs t clock =
      { m with locks := m.locks.step (.hold t w.escrow.text) }.put t (.waiting w) := by
  simp only [step, h]

theorem step_waiting {w : Work} (h : m.stage t = .waiting w)
    (hl : (m.locks.lock w.escrow.text).holder = some t) :
    m.step jobs t clock = m.read t w := by
  simp only [step, h, if_pos hl]

theorem step_blocked {w : Work} (h : m.stage t = .waiting w)
    (hl : (m.locks.lock w.escrow.text).holder ≠ some t) : m.step jobs t clock = m := by
  simp only [step, h, if_neg hl]

theorem step_reading {w : Work} {e : Escrow} {p : Plan} (h : m.stage t = .reading w e p) :
    m.step jobs t clock = m.conclude t w e p := by
  simp only [step, h]

theorem step_concluded {w : Work} {e : Escrow} {k : Conclusion}
    (h : m.stage t = .concluded w e k) :
    m.step jobs t clock = m.close t (Moment.utc clock) w e k := by
  simp only [step, h]

theorem step_closed {x : Identifier} {r : Except Failure Answer} {note : Option Notification}
    (h : m.stage t = .closed x r note) :
    m.step jobs t clock =
      { m with locks := m.locks.step (.finish t) }.put t (.telling r note) := by
  simp only [step, h]

theorem step_telling {r : Except Failure Answer} {note : Option Notification}
    (h : m.stage t = .telling r note) :
    m.step jobs t clock = m.tell t (Moment.utc clock) r note := by
  simp only [step, h]

theorem step_finished {r : Except Failure Answer} (h : m.stage t = .finished r) :
    m.step jobs t clock = m := by
  simp only [step, h]

end Laws

end Machine

/-! ## One at a time -/

namespace Service

/-- The service after the turn of a task at a reading of the clock, and what it answered. -/
def turn (jobs : String → Job) (v : Service) (t : String) (clock : Int) :
    Except Failure Answer × Service :=
  let r := { v with clock := clock }.perform (jobs t).caller (jobs t).op
  (r.1, r.2.1)

/-- The service after the turns of tasks one after another, and the answers in that order. -/
def serially (jobs : String → Job) (v : Service) :
    List (String × Int) → Service × List (String × Except Failure Answer)
  | [] => (v, [])
  | (t, clock) :: rest =>
    let a := v.turn jobs t clock
    let r := a.2.serially jobs rest
    (r.1, (t, a.1) :: r.2)

theorem serially_append (jobs : String → Job) (v : Service) (xs ys : List (String × Int)) :
    v.serially jobs (xs ++ ys) =
      (((v.serially jobs xs).1.serially jobs ys).1,
        (v.serially jobs xs).2 ++ ((v.serially jobs xs).1.serially jobs ys).2) := by
  induction xs generalizing v with
  | nil => rfl
  | cons a xs ih =>
    obtain ⟨t, clock⟩ := a
    simp only [List.cons_append, serially, ih]

end Service

end Custody

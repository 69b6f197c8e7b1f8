import Custody.Proofs.Confirmation
import Custody.Proofs.Serial

/-!
# Serializability

What many tasks leave and answer that work at the same time, their steps in any order, is what their
operations leave and answer one at a time in some order: the records of every escrow up to stamps,
the ledger, and the result of every task. So the ledger has settled no escrow twice; whoever was
told that a condition is met finds it met; and the audit log tells of it once.

> `serializable`: a run of tasks to their ends is some order of their operations.
-/

namespace Custody

/-! ## One at a time -/

namespace Service

variable {jobs : String → Job} {v : Service} {t : String} {k : Identifier}

theorem map_fst_serially (jobs : String → Job) (v : Service) (order : List (String × Int)) :
    (v.serially jobs order).2.map Prod.fst = order.map Prod.fst := by
  induction order generalizing v with
  | nil => rfl
  | cons a order ih => exact congrArg (a.1 :: ·) (ih _)

/-- What was met stays met. -/
theorem met_serially (h : Reachable v) (hk : v.store.Met k) (order : List (String × Int)) :
    (v.serially jobs order).1.store.Met k := by
  induction order generalizing v with
  | nil => exact hk
  | cons a order ih =>
    refine ih (reachable_turn h a.2) ?_
    exact (perform_effect (v := { v with clock := a.2 }) h.kept.sound _ _).met hk

/-- A confirmation whose turn went well leaves its condition met until the end. -/
theorem confirmed_serially (h : Reachable v) (hop : (jobs t).op = .confirm k)
    {order : List (String × Int)} {a : Answer} (ha : (t, .ok a) ∈ (v.serially jobs order).2) :
    (v.serially jobs order).1.store.Met k := by
  induction order generalizing v with
  | nil => cases ha
  | cons b order ih =>
    have hnext : Reachable (v.turn jobs b.1 b.2).2 := reachable_turn h b.2
    rcases List.mem_cons.mp ha with hb | hb
    · -- This is the turn that meets the condition; those after it leave it so.
      obtain ⟨rfl, hr⟩ := Prod.mk.inj hb
      refine met_serially hnext ?_ order
      unfold turn at hr ⊢
      rw [hop] at hr ⊢
      exact met_of_confirmed hr.symm
    · exact ih hnext hb

end Service

/-! ## Up to stamps -/

namespace Store

variable {s t : Store}

/-- Every condition is on the other side too. -/
theorem exists_condition_of_plain (h : ∀ x, s.plain x = t.plain x) {c : Condition}
    (hc : c ∈ s.conditions) :
    ∃ d ∈ t.conditions, d.id = c.id ∧ d.escrow = c.escrow ∧ d.met = c.met := by
  have hcx : c ∈ s.conditionsOf c.escrow := List.mem_filter.mpr ⟨hc, by simp⟩
  have hmem := List.mem_map_of_mem (f := Condition.undated) hcx
  rw [(plain_eq_iff.mp (h c.escrow)).2.1] at hmem
  obtain ⟨d, hd, hdc⟩ := List.mem_map.mp hmem
  have hid : d.undated.id = c.undated.id := congrArg Condition.id hdc
  have hx : d.undated.escrow = c.undated.escrow := congrArg Condition.escrow hdc
  have hm : d.undated.met = c.undated.met := congrArg Condition.met hdc
  exact ⟨d, (List.mem_filter.mp hd).1, hid, hx, hm⟩

theorem Met.of_plain (h : ∀ x, s.plain x = t.plain x) {k : Identifier} (hk : s.Met k) :
    t.Met k := by
  obtain ⟨c, hc, rfl, hm⟩ := hk
  obtain ⟨d, hd, hid, -, hdm⟩ := exists_condition_of_plain h hc
  exact ⟨d, hd, hid, hdm.trans hm⟩

theorem length_confirmations_of_plain {x : Identifier} (h : s.plain x = t.plain x)
    (k : Identifier) : (s.confirmations x k).length = (t.confirmations x k).length := by
  have hdata := congrArg (fun l : List Event => (l.filter fun v => v.data.confirms k).length)
    (plain_eq_iff.mp h).2.2
  simp only [List.filter_map, List.length_map] at hdata
  exact hdata

/-- The log tells of a confirmation once, also up to stamps. -/
theorem Tallied.of_plain (h : ∀ x, s.plain x = t.plain x) (ht : t.Tallied) {c : Condition}
    (hc : c ∈ s.conditions) :
    (s.confirmations c.escrow c.id).length = if c.met then 1 else 0 := by
  obtain ⟨d, hd, hid, hx, hm⟩ := exists_condition_of_plain h hc
  have honce := ht.once d hd
  rw [hid, hx, hm] at honce
  rw [length_confirmations_of_plain (h c.escrow), honce]

end Store

/-! ## Tasks that have finished -/

namespace Machine

variable {jobs : String → Job} {m : Machine} {t u : String} {clock : Int}

/-- A step of a task leaves the others where they are. -/
theorem stage_step_of_ne (h : u ≠ t) : (m.step jobs t clock).stage u = m.stage u := by
  have hput : ∀ {m' : Machine} {st : Stage}, m'.stage = (m.put t st).stage →
      m'.stage u = m.stage u := by
    intro m' st hm
    rw [hm, stage_put_of_ne h]
  -- Whatever a task does, it puts no stage but its own.
  cases hst : m.stage t with
  | ready =>
    rw [step_ready hst]
    unfold begin
    split
    next => exact hput rfl
    next => exact hput rfl
    next =>
      split
      next => exact hput rfl
      next => split <;> exact hput rfl
  | asking w =>
    rw [step_asking hst]
    exact hput rfl
  | waiting w =>
    by_cases hl : (m.locks.lock w.escrow.text).holder = some t
    · rw [step_waiting hst hl]
      unfold read
      split <;> exact hput rfl
    · rw [step_blocked hst hl]
  | reading w e p =>
    rw [step_reading hst]
    exact hput rfl
  | concluded w e k =>
    rw [step_concluded hst]
    exact hput rfl
  | closed x r note =>
    rw [step_closed hst]
    exact hput rfl
  | telling r note =>
    rw [step_telling hst]
    exact hput rfl
  | finished r => rw [step_finished hst]

theorem stage_run_of_not_mem (jobs : String → Job) {schedule : List (String × Int)}
    (h : u ∉ schedule.map Prod.fst) :
    (m.run jobs schedule).stage u = m.stage u := by
  induction schedule generalizing m with
  | nil => rfl
  | cons a schedule ih =>
    rw [List.map_cons, List.mem_cons, not_or] at h
    exact (ih h.2).trans (stage_step_of_ne h.1)

end Machine

theorem Stage.result?_eq_some_iff {st : Stage} {r : Except Failure Answer} :
    st.result? = some r ↔ st = .finished r := by
  cases st <;> simp [result?]

/-! ## Serializability -/

/-- Tasks that do not create escrows and work at the same time, until those that were scheduled have
finished, come to what their operations come to one at a time, each once, in some order: the records
of every escrow are the same up to stamps, the ledger is the same, and every task has the result
that its operation had in its turn. No escrow is settled twice. Whoever confirmed a condition and
was not refused finds it met, and the log tells once of every condition that is met and of no
other. -/
theorem serializable {v : Service} (h : Reachable v) (hd : v.database = none) (hl : v.lease = none)
    {jobs : String → Job} {schedule : List (String × Int)}
    (hjobs : ∀ a ∈ schedule, ∀ n, (jobs a.1).op ≠ .create n)
    (hdone : ∀ a ∈ schedule,
      (((Machine.start v).run jobs schedule).stage a.1).result?.isSome = true) :
    let m := (Machine.start v).run jobs schedule
    (∃ order : List (String × Int),
      (order.map Prod.fst).Nodup ∧
      (∀ t, t ∈ order.map Prod.fst ↔ t ∈ schedule.map Prod.fst) ∧
      (∀ x, m.service.store.plain x = (v.serially jobs order).1.store.plain x) ∧
      m.service.ledger = (v.serially jobs order).1.ledger ∧
      ∀ t r, (m.stage t).result? = some r →
        ∃ r', (t, r') ∈ (v.serially jobs order).2 ∧ r.map Answer.undated = r'.map Answer.undated) ∧
    (∀ x, (m.service.ledger.settlementsOf x).length ≤ 1) ∧
    (∀ t k a, (jobs t).op = .confirm k → (m.stage t).result? = some (.ok a) →
      m.service.store.Met k) ∧
    ∀ c ∈ m.service.store.conditions,
      (m.service.store.confirmations c.escrow c.id).length = if c.met then 1 else 0 := by
  intro m
  obtain ⟨order, hserial⟩ :=
    (Machine.Serial.start h hd hl).run (Machine.Exclusive.start v) hjobs
  rw [List.nil_append] at hserial
  -- Everyone who has begun has finished, so nothing is owed to any escrow.
  have hrest : ∀ t, m.stage t = .ready ∨ ∃ r, m.stage t = .finished r := by
    intro t
    by_cases ht : t ∈ schedule.map Prod.fst
    · obtain ⟨a, ha, rfl⟩ := List.mem_map.mp ht
      obtain ⟨r, hr⟩ := Option.isSome_iff_exists.mp (hdone a ha)
      exact .inr ⟨r, Stage.result?_eq_some_iff.mp hr⟩
    · exact .inl (Machine.stage_run_of_not_mem jobs ht)
  have hplain : ∀ x, m.service.store.plain x = (v.serially jobs order).1.store.plain x := by
    refine fun x => hserial.same x fun t ht => ?_
    rcases hrest t with hst | ⟨r, hst⟩
    · rw [hst] at ht
      exact ht
    · rw [hst] at ht
      exact ht
  have hanswers : ∀ t r, (m.stage t).result? = some r →
      ∃ r', (t, r') ∈ (v.serially jobs order).2 ∧ r.map Answer.undated = r'.map Answer.undated := by
    intro t r hr
    have htask := hserial.tasks t
    rw [Stage.result?_eq_some_iff.mp hr] at htask
    exact htask
  refine ⟨⟨order, ?_, fun t => ?_, hplain, hserial.ledger, hanswers⟩, fun x => ?_,
    fun t k a hop ha => ?_, fun c hc => hserial.reachable.tallied.of_plain hplain hc⟩
  · rw [← Service.map_fst_serially jobs v]
    exact hserial.once
  · rw [← Service.map_fst_serially jobs v, hserial.turned]
    rcases hrest t with hst | ⟨r, hst⟩
    · rw [hst]
      constructor
      · intro hturned
        cases hturned
      · intro hmem
        obtain ⟨a, ha, rfl⟩ := List.mem_map.mp hmem
        have hdone := hdone a ha
        rw [hst] at hdone
        cases hdone
    · rw [hst]
      refine ⟨fun _ => ?_, fun _ => rfl⟩
      by_contra hmem
      have hready := Machine.stage_run_of_not_mem jobs (m := Machine.start v) hmem
      rw [hst] at hready
      cases hready
  · rw [hserial.ledger]
    exact hserial.reachable.settled.length_le_one x
  · obtain ⟨r', hr', hrr⟩ := hanswers t _ ha
    cases r' with
    | error f => cases hrr
    | ok a' =>
      exact (Service.confirmed_serially h hop hr').of_plain fun x => (hplain x).symm

/-- The seller and the buyer confirm one condition of the sale each. -/
def confirmers (t : String) : Job :=
  if t = "a" then ⟨⟨"seller", none⟩, .confirm (Identifier.condition 1)⟩
  else ⟨⟨"buyer", none⟩, .confirm (Identifier.condition 2)⟩

/-- Both look their condition up and ask for the lock before either has read the record. -/
def closeRace : List (String × Int) :=
  [("b", 1), ("a", 2), ("a", 3), ("b", 4), ("b", 5), ("a", 6), ("b", 7), ("a", 8), ("a", 9),
    ("b", 10), ("a", 11), ("b", 12), ("b", 13), ("a", 14), ("b", 15), ("b", 16), ("b", 17),
    ("a", 18), ("b", 19)]

/-- In the race both confirmations count, and the seller is paid once. -/
theorem serializable_closeRace :
    let m := (Machine.start soldService).run confirmers closeRace
    (∀ a ∈ closeRace, (m.stage a.1).result?.isSome = true) ∧
      m.service.ledger.settlements.length = 1 ∧
      (∃ order : List (String × Int), (order.map Prod.fst).Nodup ∧
        (∀ x, m.service.store.plain x =
          (soldService.serially confirmers order).1.store.plain x) ∧
        m.service.ledger = (soldService.serially confirmers order).1.ledger) ∧
      m.service.store.Met (Identifier.condition 1) ∧
      m.service.store.Met (Identifier.condition 2) := by
  have hjobs : ∀ a ∈ closeRace, ∀ n, (confirmers a.1).op ≠ .create n := by
    intro a _ n
    unfold confirmers
    split <;> simp
  have hdone : ∀ a ∈ closeRace, (((Machine.start soldService).run confirmers closeRace).stage
      a.1).result?.isSome = true := by decide +kernel
  have hok : ∀ t ∈ ["a", "b"], (((Machine.start soldService).run confirmers closeRace).stage
      t).result?.any Except.isOk = true := by decide +kernel
  have hpaid : ((Machine.start soldService).run confirmers
      closeRace).service.ledger.settlements.length = 1 := by decide +kernel
  obtain ⟨⟨order, honce, -, hstore, hledger, -⟩, -, hmet, -⟩ :=
    serializable soldService_reachable (by decide +kernel) (by decide +kernel) hjobs hdone
  generalize (Machine.start soldService).run confirmers closeRace = m at *
  have hanswer : ∀ t ∈ ["a", "b"], ∃ a, (m.stage t).result? = some (.ok a) := by
    intro t ht
    obtain ⟨r, hr, hisok⟩ := (Option.any_eq_true ..).mp (hok t ht)
    cases r with
    | error f => cases hisok
    | ok a => exact ⟨a, hr⟩
  obtain ⟨a, ha⟩ := hanswer "a" (by simp)
  obtain ⟨b, hb⟩ := hanswer "b" (by simp)
  exact ⟨hdone, hpaid, ⟨order, honce, hstore, hledger⟩, hmet "a" _ a rfl ha, hmet "b" _ b rfl hb⟩

end Custody

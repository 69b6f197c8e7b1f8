import Custody.Service.Interleaving
import Custody.Proofs.Stamp

/-!
# Turns

An operation that is done in one go reads, asks the ledger and commits with nobody in between. What
it reads before, a condition that is to be confirmed, can only have been met meanwhile: its escrow
stays the same, and a condition that was met stays met. So the work that a job began with may be
done later, and on records that differ in stamps it comes to the same.

> `turn_eq_commit`: a turn is the work that its job began with, read and committed at once.
> `Job.Begins.plan_congr`, `Job.Begins.answer_congr`: work does not look at a stamp.
-/

namespace Custody

/-! ## Names -/

namespace Store

/-- What tells records and conditions apart, and whose the conditions are. -/
def names (s : Store) : List Identifier × List (Identifier × Identifier) :=
  (s.escrows.map (·.id), s.conditions.map fun c => (c.id, c.escrow))

@[simp]
theorem names_written (s : Store) (now : Moment) (x : Identifier) (n : Nat) (w : Writes) :
    (s.written now x n w).names = s.names := by
  simp only [names, written, escrows_enterAll, conditions_enterAll, changed, List.map_map,
    Function.comp_def, Writes.onRecord_id, Writes.onCondition_id, Writes.onCondition_escrow]

/-- Whether records can be told apart is a matter of their names. -/
theorem nodup_of_names {s t : Store} (h : s.names = t.names)
    (ht : (t.conditions.map (·.id)).Nodup) : (s.conditions.map (·.id)).Nodup := by
  have hids := congrArg (fun n => n.2.map Prod.fst) h
  simp only [names, List.map_map] at hids
  exact hids ▸ ht

theorem mem_names_iff {s : Store} {k x : Identifier} :
    (k, x) ∈ s.names.2 ↔ ∃ c ∈ s.conditions, c.id = k ∧ c.escrow = x := by
  simp [names]

theorem stored?_eq_none_iff {s : Store} {x : Identifier} : s.stored? x = none ↔ x ∉ s.names.1 := by
  unfold stored? names
  rw [List.find?_eq_none]
  simp

theorem condition?_eq_none_iff {s : Store} {k : Identifier} :
    s.condition? k = none ↔ k ∉ s.names.2.map Prod.fst := by
  unfold condition? names
  rw [List.find?_eq_none]
  simp

/-- A condition that is named is there. -/
theorem condition?_of_names {s : Store} (hn : (s.conditions.map (·.id)).Nodup) {k x : Identifier}
    (h : (k, x) ∈ s.names.2) : ∃ c, s.condition? k = some c ∧ c.id = k ∧ c.escrow = x := by
  obtain ⟨c, hc, rfl, rfl⟩ := mem_names_iff.mp h
  exact ⟨c, (find?_eq_some_iff_mem hn).mpr hc, rfl, rfl⟩

/-- A condition that is there is among those of its escrow. -/
theorem find?_conditionsOf_of_condition? {s : Store} (hn : (s.conditions.map (·.id)).Nodup)
    {k : Identifier} {c : Condition} (h : s.condition? k = some c) :
    (s.conditionsOf c.escrow).find? (fun d => d.id = k) = some c := by
  have hid : c.id = k := by simpa using List.find?_some h
  subst hid
  exact find?_conditionsOf hn
    (List.mem_filter.mpr ⟨List.mem_of_find?_eq_some h, decide_eq_true rfl⟩)

/-- Conditions that are named alike, of escrows that differ in stamps, differ in stamps. -/
theorem condition?_congr {s t : Store} (hs : (s.conditions.map (·.id)).Nodup)
    (ht : (t.conditions.map (·.id)).Nodup) {k x : Identifier} (hks : (k, x) ∈ s.names.2)
    (hkt : (k, x) ∈ t.names.2) (h : s.plain x = t.plain x) :
    (s.condition? k).map Condition.undated = (t.condition? k).map Condition.undated := by
  obtain ⟨c, hc, -, hcx⟩ := condition?_of_names hs hks
  obtain ⟨d, hd, -, hdx⟩ := condition?_of_names ht hkt
  have hfc := find?_conditionsOf_of_condition? hs hc
  have hfd := find?_conditionsOf_of_condition? ht hd
  rw [hcx] at hfc
  rw [hdx] at hfd
  rw [hc, hd, ← hfc, ← hfd, ← find?_undated, ← find?_undated, (plain_eq_iff.mp h).2.1]

end Store

/-! ## The work of a job -/

/-- The work that a job begins with at a reading of the clock. A condition that it confirms is
there. -/
inductive Job.Begins (j : Job) (clock : Int) (s : Store) : Work → Prop
  | task {x : Identifier} {a : Task} (h : j.op = .task x a) :
      j.Begins clock s (.ofTask (Moment.utc clock) j.caller x a)
  | confirmation {q : Condition} (h : j.op = .confirm q.id) (hq : (q.id, q.escrow) ∈ s.names.2) :
      j.Begins clock s (.ofConfirmation j.caller q)

namespace Job.Begins

variable {j : Job} {clock : Int} {s t : Store} {w : Work} {e d : Escrow} {cs ds : List Condition}

theorem congr (h : j.Begins clock s w) (hn : t.names = s.names) : j.Begins clock t w := by
  cases h with
  | task h => exact .task h
  | confirmation h hq => exact .confirmation h (hn ▸ hq)

/-- Work that goes through is a deed. -/
theorem isDeed (h : j.Begins clock s w) (he : e.Sound) (cs : List Condition)
    {ask : SettleRequest → LedgerAnswer} (hv : ((w.plan e.loaded cs).conclude ask).verdict = .ok ()) :
    ((w.plan e.loaded cs).conclude ask).IsDeed j.caller e.loaded cs ask := by
  cases h with
  | task h => exact Task.isDeed hv
  | confirmation h hq => exact isDeed_planConfirmation (fun hr => he.released_iff.mp hr) hv

/-- The plan of work does not look at a stamp. -/
theorem plan_congr (h : j.Begins clock s w) (he : e.undated = d.undated)
    (hc : cs.map Condition.undated = ds.map Condition.undated) : w.plan e cs = w.plan d ds := by
  cases h with
  | task h =>
    show Task.plan .. = Task.plan ..
    rw [← plan_undated, ← plan_undated d, he, hc]
  | confirmation h hq =>
    show planConfirmation .. = planConfirmation ..
    rw [← planConfirmation_undated, ← planConfirmation_undated d, he, hc]

/-- Nor does its answer, up to stamps. -/
theorem answer_congr (h : j.Begins clock s w) (hs : (s.conditions.map (·.id)).Nodup)
    (ht : t.names = s.names) (hx : s.plain w.escrow = t.plain w.escrow)
    (he : e.undated = d.undated) : (w.answer s e).undated = (w.answer t d).undated := by
  cases h with
  | task h => exact congrArg Answer.escrow he
  | @confirmation q h hq =>
    have hqt : (q.id, q.escrow) ∈ t.names.2 := ht ▸ hq
    have hts := Store.nodup_of_names ht hs
    obtain ⟨c, hc, -, -⟩ := Store.condition?_of_names hs hq
    obtain ⟨d, hd, -, -⟩ := Store.condition?_of_names hts hqt
    have hcd := Store.condition?_congr hs hts hq hqt hx
    rw [hc, hd] at hcd
    show (Answer.condition ((s.condition? q.id).getD q)).undated =
      (Answer.condition ((t.condition? q.id).getD q)).undated
    rw [hc, hd]
    exact congrArg Answer.condition (Option.some.inj hcd)

end Job.Begins

/-! ## The end of a transaction -/

namespace Conclusion

variable {v : Service} (now : Moment) {w : Work} {e : Escrow} {k : Conclusion}

/-- The end of a transaction is what the work comes to as a whole. -/
theorem commit_conclude (he : v.store.escrow? w.escrow = some e) :
    let o := w.outcome { v.surroundings with now := now } v.store v.counters
    let k := (w.plan e (v.store.conditionsOf w.escrow)).conclude v.ask
    k.commit { v with ledger := Service.ledgerAfter v.ledger k.asked } now w e =
      (o.result,
        { v with
          store := o.store, counters := o.counters
          ledger := Service.ledgerAfter v.ledger o.asked },
        o.announced) := by
  intro o k
  have ho : o = w.outcome { v.surroundings with now := now } v.store v.counters := rfl
  -- What the ledger answers does not depend on the time at the end.
  have hk : (w.plan e (v.store.conditionsOf w.escrow)).conclude
    ({ v.surroundings with now := now } : Surroundings).ask = k := rfl
  unfold Work.outcome at ho
  unfold Conclusion.commit
  cases hv : k.verdict with
  | error f =>
    rw [carryOut_of_error he hk hv] at ho
    rw [ho]
    rfl
  | ok _ =>
    cases ha : v.store.apply now w.escrow (v.counters.events + 1) k.writes with
    | error f =>
      rw [carryOut_of_rejected he hk hv ha] at ho
      rw [ho]
      simp only [ha]
      rfl
    | ok s =>
      rw [carryOut_of_ok he hk hv ha] at ho
      rw [ho]
      simp only [ha]
      rfl

/-- The service when the numbers of its events are used up. -/
def numbered (v : Service) (k : Conclusion) : Service :=
  { v with counters :=
    { v.counters with events := v.counters.events + k.writes.drafts.length } }

/-- A transaction that fails keeps nothing. -/
theorem commit_error {f : Failure} (hv : k.verdict = .error f) :
    k.commit v now w e = (.error f, k.numbered v, none) := by
  unfold commit
  rw [hv]
  rfl

/-- The writes of a deed are committed. -/
theorem commit_deed {by' : Caller} {cs : List Condition} {paid : Option (SettleRequest × String)}
    (hv : k.verdict = .ok ()) (hd : Deed by' e.loaded cs k.writes paid) (hs : e.Sound)
    (he : v.store.stored? w.escrow = some e) :
    let s := v.store.written now w.escrow (v.counters.events + 1) k.writes
    k.commit v now w e.loaded =
      (.ok (w.answer s (k.writes.view now e.loaded)), { k.numbered v with store := s },
        k.writes.announcement.map fun a => a.about (k.writes.view now e.loaded)) := by
  intro s
  unfold commit
  rw [hv]
  simp only [hd.apply_eq_ok hs he now]
  rfl

end Conclusion

/-! ## Turns -/

/-- What two outcomes that differ in their logs have in common. -/
theorem Outcome.eq_of_unlogged {α : Type} {o o' : Outcome α} (h : o.unlogged = o'.unlogged) :
    o.result = o'.result ∧ o.store = o'.store ∧ o.counters = o'.counters ∧ o.asked = o'.asked ∧
      o.announced = o'.announced := by
  obtain ⟨hresult, hstore, hcounters, -, -, hasked, hannounced⟩ := Outcome.mk.inj h
  exact ⟨hresult, hstore, hcounters, hasked, hannounced⟩

theorem outcome_ofConfirmation (env : Surroundings) (s : Store) (c : Counters) (by' : Caller)
    (q : Condition) :
    (Work.ofConfirmation by' q).outcome env s c =
      (carryOut env q.escrow (planConfirmation q.id by') s c).mapResult fun _ =>
        .condition (((carryOut env q.escrow (planConfirmation q.id by') s c).store.condition?
          q.id).getD q) := rfl

/-- Work on a condition that was met meanwhile ends at once. -/
theorem outcome_of_met {env : Surroundings} {s : Store} {c : Counters} {by' : Caller} {e : Escrow}
    {q d : Condition} (he : s.escrow? q.escrow = some e) (hd : s.condition? q.id = some d)
    (hf : (s.conditionsOf q.escrow).find? (fun c => c.id = q.id) = some d) (hm : d.met = true) :
    ((Work.ofConfirmation by' q).outcome env s c).unlogged =
      (Outcome.settled s c [] (Answer.condition d)).unlogged := by
  have hplan : planConfirmation q.id by' e (s.conditionsOf q.escrow) =
      ⟨{ log := [alreadyMetLog q.id] }, .finish⟩ := by
    simp only [planConfirmation, hf, if_pos hm]
  have hk : ((Work.ofConfirmation by' q).plan e (s.conditionsOf q.escrow)).conclude env.ask =
      ⟨{ log := [alreadyMetLog q.id] }, .ok (), none⟩ := by
    show (planConfirmation ..).conclude _ = _
    rw [hplan]
    rfl
  have ho : carryOut env q.escrow (planConfirmation q.id by') s c = _ :=
    carryOut_of_ok he hk rfl rfl
  rw [outcome_ofConfirmation, ho]
  show Outcome.mk (.ok (Answer.condition ((s.condition? q.id).getD q))) s _ [] [] none none = _
  rw [hd]
  rfl

/-- A transaction on sound records keeps the names. -/
theorem names_carryOut (env : Surroundings) {s : Store} {c : Counters} {j : Job} {clock : Int}
    {w : Work} (hk : Kept s c) (h : j.Begins clock s w) :
    (carryOut env w.escrow w.plan s c).store.names = s.names := by
  rcases @carryOut_cases env j.caller w.escrow w.plan s c hk.sound
    (fun e _ he hv => h.isDeed he _ hv) with hf | ⟨e, d, paid, -, hd⟩
  · rw [hf.store]
  · rw [hd.store]
    exact Store.names_written ..

/-- The operation of a job is the work that it began with, also when the condition has been met
since. -/
theorem Job.Begins.run (env : Surroundings) (hdb : env.database = none) (hl : env.lease = none)
    {s : Store} {c : Counters} (hk : Kept s c) {j : Job} {clock : Int} {w : Work}
    (h : j.Begins clock s w) (hnow : env.now = Moment.utc clock) :
    (j.op.run env j.caller s s c).unlogged = (w.outcome env s c).unlogged := by
  have hnames := names_carryOut env hk h
  cases h with
  | task h =>
    rw [h, ← hnow]
    exact Operation.run_task hl hdb ..
  | @confirmation q h hq =>
    obtain ⟨d, hd, hid, hx⟩ := Store.condition?_of_names hk.conditionsDistinct hq
    rw [h]
    by_cases hm : d.met = true
    · obtain ⟨e, he, hed⟩ := hk.owned d (List.mem_of_find?_eq_some hd)
      have hread : s.escrow? q.escrow = some e.loaded := by
        rw [Store.escrow?, ← hx, ← hed, (Store.stored?_eq_some_iff hk.distinct).mpr he]
        rfl
      have hf := Store.find?_conditionsOf_of_condition? hk.conditionsDistinct hd
      rw [hx] at hf
      rw [outcome_of_met hread hd hf hm]
      simp only [Operation.run, confirmCondition, hdb, hd, if_pos hm]
      rfl
    · have hrun := Operation.run_confirm hl hdb j.caller (q := d) (by rw [hid]; exact hd)
        (by simpa using hm) s c
      rw [hid] at hrun
      rw [hrun]
      rw [outcome_ofConfirmation, outcome_ofConfirmation, hid, hx]
      have hnames : (carryOut env q.escrow (planConfirmation q.id j.caller) s c).store.names =
          s.names := hnames
      generalize carryOut env q.escrow (planConfirmation q.id j.caller) s c = o at hnames
      -- The condition is there afterwards, whichever one the answer would fall back on.
      obtain ⟨d', hd', -, -⟩ := Store.condition?_of_names
        (Store.nodup_of_names hnames hk.conditionsDistinct) (by rw [hnames]; exact hq)
      rw [hd']
      rfl

namespace Service

variable {jobs : String → Job} {v : Service} {t : String} {clock : Int} {w : Work}

theorem reachable_turn (h : Reachable v) (i : Int) : Reachable (v.turn jobs t i).2 :=
  (h.step (.clock i)).step (.operation _ _)

/-- What a ledger answers depends on the ledger alone. -/
theorem ask_congr {u : Service} (h : v.ledger = u.ledger) : v.ask = u.ask := by
  unfold ask
  rw [h]

/-- A turn comes to what its operation comes to, log entries aside. -/
theorem turn_eq_of_unlogged {o : Outcome Answer}
    (h : ((jobs t).op.run { v.surroundings with now := Moment.utc clock } (jobs t).caller v.store
      v.store v.counters).unlogged = o.unlogged) :
    v.turn jobs t clock =
      (o.result, { v with
        clock := clock, store := o.store, counters := o.counters
        ledger := ledgerAfter v.ledger o.asked }) := by
  obtain ⟨hresult, hstore, hcounters, hasked, -⟩ := Outcome.eq_of_unlogged h
  rw [← hresult, ← hstore, ← hcounters, ← hasked]
  rfl

theorem turn_of_confirm_none (clock : Int) {k : Identifier} (hd : v.database = none)
    (hop : (jobs t).op = .confirm k) (hk : v.store.condition? k = none) :
    v.turn jobs t clock =
      (.error (.escrow (.conditionNotFound k.text)), { v with clock := clock }) := by
  have hdb : v.surroundings.database = none := hd
  refine turn_eq_of_unlogged
    (o := .refused v.store v.counters [] (.escrow (.conditionNotFound k.text))) ?_
  simp only [hop, Operation.run, confirmCondition, hdb, hk]

theorem turn_of_confirm_met (clock : Int) {k : Identifier} {q : Condition} (hd : v.database = none)
    (hop : (jobs t).op = .confirm k) (hk : v.store.condition? k = some q) (hm : q.met = true) :
    v.turn jobs t clock = (.ok (.condition q), { v with clock := clock }) := by
  have hdb : v.surroundings.database = none := hd
  refine turn_eq_of_unlogged (o := .settled v.store v.counters [] (.condition q)) ?_
  simp only [hop, Operation.run, confirmCondition, hdb, hk, if_pos hm]
  rfl

/-- Where there is no such escrow, a turn comes to nothing. -/
theorem turn_of_none (hk : Kept v.store v.counters) (hd : v.database = none) (hl : v.lease = none)
    (h : (jobs t).Begins clock v.store w) (he : v.store.escrow? w.escrow = none) :
    v.turn jobs t clock =
      (.error (.escrow (.escrowNotFound w.escrow.text)), { v with clock := clock }) := by
  have hrun := h.run { v.surroundings with now := Moment.utc clock } hd hl hk rfl
  rw [turn_eq_of_unlogged hrun, Work.outcome, carryOut_of_none he]
  rfl

/-- A turn is the work that its job began with, read and committed at once. -/
theorem turn_eq_commit (hk : Kept v.store v.counters) (hd : v.database = none) (hl : v.lease = none)
    (h : (jobs t).Begins clock v.store w) {e : Escrow} (he : v.store.escrow? w.escrow = some e) :
    let k := (w.plan e (v.store.conditionsOf w.escrow)).conclude v.ask
    let r := k.commit { v with ledger := ledgerAfter v.ledger k.asked } (Moment.utc clock) w e
    v.turn jobs t clock = (r.1, { r.2.1 with clock := clock }) := by
  intro k r
  have hr : r = _ := Conclusion.commit_conclude _ he
  have hrun := h.run { v.surroundings with now := Moment.utc clock } hd hl hk rfl
  rw [turn_eq_of_unlogged hrun, hr]

section Commits

variable {e : Escrow} {k : Conclusion} (hk : Kept v.store v.counters) (hd : v.database = none)
  (hl : v.lease = none) (h : (jobs t).Begins clock v.store w)
  (he : v.store.stored? w.escrow = some e)
  (hc : (w.plan e.loaded (v.store.conditionsOf w.escrow)).conclude v.ask = k)

include hk hd hl h he hc

/-- A turn that is refused. -/
theorem turn_of_error {f : Failure} (hv : k.verdict = .error f) :
    v.turn jobs t clock =
      (.error f, { k.numbered v with clock := clock, ledger := ledgerAfter v.ledger k.asked }) := by
  have hread : v.store.escrow? w.escrow = some e.loaded := by rw [Store.escrow?, he]; rfl
  rw [turn_eq_commit hk hd hl h hread, hc, Conclusion.commit_error _ hv]
  rfl

/-- A turn that goes through. -/
theorem turn_of_ok (hv : k.verdict = .ok ()) :
    let s := v.store.written (Moment.utc clock) w.escrow (v.counters.events + 1) k.writes
    v.turn jobs t clock =
      (.ok (w.answer s (k.writes.view (Moment.utc clock) e.loaded)),
        { k.numbered v with
          clock := clock, store := s, ledger := ledgerAfter v.ledger k.asked }) := by
  intro s
  have hread : v.store.escrow? w.escrow = some e.loaded := by rw [Store.escrow?, he]; rfl
  have hsound : e.Sound := hk.sound e (List.mem_of_find?_eq_some he)
  obtain ⟨paid, hdeed, -, -⟩ : k.IsDeed (jobs t).caller e.loaded
      (v.store.conditionsOf w.escrow) v.ask := by
    rw [← hc]
    exact h.isDeed hsound _ (by rw [hc]; exact hv)
  have hcommit := Conclusion.commit_deed (v := { v with ledger := ledgerAfter v.ledger k.asked })
    (Moment.utc clock) hv hdeed hsound he
  rw [turn_eq_commit hk hd hl h hread, hc, hcommit]
  rfl

end Commits

end Service

end Custody

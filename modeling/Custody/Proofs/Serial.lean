import Custody.Proofs.Exclusion
import Custody.Proofs.Settlement
import Custody.Proofs.Turn

/-!
# As if one at a time

Whatever the order of the steps of many tasks, what they leave and what they answer is what the same
operations leave and answer one after another. The turn of a task comes when the ledger answers, or
when there is no such escrow, or no such condition, or one that was met. From then until its
transaction is committed, its writes are owed: the service that takes turns has them already.

    machine   … reading ── turn ──→ concluded ── commit ──→ closed …
    service             the whole operation

What carries the induction is `Machine.Serial`. An escrow to which nothing is owed is the same on
both sides, and a task that is owed something holds its lock.

> `Serial.step`: a step is a turn, or none.
> `Serial.run`: the steps of many tasks are turns in some order.
-/

namespace Custody

/-! ## Tasks and turns -/

namespace Stage

/-- Whether a task has had its turn. -/
def turned : Stage → Bool
  | .concluded .. | .closed .. | .telling .. | .finished .. => true
  | _ => false

/-- Whether a task owes writes to an escrow. -/
def Owes : Stage → Identifier → Prop
  | .concluded w _ k, x => w.escrow = x ∧ k.verdict = .ok ()
  | _, _ => False

/-- What is owed to an escrow is what its turn has left there already, and the answer will be the
answer of the turn. -/
structure Owed (s u : Store) (w : Work) (e : Escrow) (k : Conclusion) (r : Except Failure Answer) :
    Prop where
  deed : ∃ d by' paid, s.stored? w.escrow = some d ∧ d.Sound ∧ d.loaded = e ∧
    Deed by' e (s.conditionsOf w.escrow) k.writes paid
  written : ∀ now n, (s.written now w.escrow n k.writes).plain w.escrow = u.plain w.escrow
  answer : ∀ t : Store, t.names = s.names → t.plain w.escrow = u.plain w.escrow → ∀ now,
    (Except.ok (w.answer t (k.writes.view now e)) : Except Failure Answer).map Answer.undated =
      r.map Answer.undated

/-- What holds of a task at a stage. `s` are the records of the machine, `u` those of the service
that takes turns, and `answered` are the results of the turns of the task. -/
def Follows (j : Job) (s u : Store) (answered : Except Failure Answer → Prop) : Stage → Prop
  | .ready => True
  | .asking w | .waiting w => ∃ i, j.Begins i s w
  | .reading w e p =>
    (∃ i, j.Begins i s w) ∧ s.escrow? w.escrow = some e ∧ p = w.plan e (s.conditionsOf w.escrow)
  | .concluded w e k =>
    ∃ r, answered r ∧ (∀ f, k.verdict = .error f → r = .error f) ∧
      (k.verdict = .ok () → Owed s u w e k r)
  | .closed _ r' _ | .telling r' _ | .finished r' =>
    ∃ r, answered r ∧ r'.map Answer.undated = r.map Answer.undated

variable {j : Job} {s s' u u' : Store} {answered answered' : Except Failure Answer → Prop}

theorem Owes.holds {st : Stage} {x : Identifier} (h : st.Owes x) :
    st.holds = true ∧ st.lock? = some x := by
  cases st with
  | concluded w e k => exact ⟨rfl, congrArg some h.1⟩
  | _ => exact h.elim

theorem Owed.congr {w : Work} {e : Escrow} {k : Conclusion} {r : Except Failure Answer}
    (h : Owed s u w e k r) (hn : s'.names = s.names) (hs : s'.part w.escrow = s.part w.escrow)
    (hu : u'.plain w.escrow = u.plain w.escrow) : Owed s' u' w e k r := by
  obtain ⟨d, by', paid, hd, hsound, he, hdeed⟩ := h.deed
  refine ⟨⟨d, by', paid, ?_, hsound, he, ?_⟩, fun now n => ?_, fun t ht hx now => ?_⟩
  · rw [Store.stored?_of_part hs, hd]
  · rw [Store.conditionsOf_of_part hs]
    exact hdeed
  · rw [Store.plain_written (Store.plain_of_part hs) k.writes now now n n, h.written, hu]
  · exact h.answer t (ht.trans hn) (hx.trans hu) now

/-- What holds of a task goes on holding while the others leave its escrow alone. -/
theorem Follows.congr {st : Stage} (h : st.Follows j s u answered) (hn : s'.names = s.names)
    (ha : ∀ r, answered r → answered' r)
    (hx : ∀ x, st.holds = true → st.lock? = some x →
      s'.part x = s.part x ∧ u'.plain x = u.plain x) :
    st.Follows j s' u' answered' := by
  cases st with
  | ready => trivial
  | asking w | waiting w =>
    obtain ⟨i, hi⟩ := h
    exact ⟨i, hi.congr hn⟩
  | reading w e p =>
    obtain ⟨⟨i, hi⟩, he, hp⟩ := h
    obtain ⟨hs, -⟩ := hx w.escrow rfl rfl
    refine ⟨⟨i, hi.congr hn⟩, ?_, ?_⟩
    · rw [Store.escrow?, Store.stored?_of_part hs]
      exact he
    · rw [Store.conditionsOf_of_part hs]
      exact hp
  | concluded w e k =>
    obtain ⟨r, hr, herror, howed⟩ := h
    obtain ⟨hs, hu⟩ := hx w.escrow rfl rfl
    exact ⟨r, ha r hr, herror, fun hv => (howed hv).congr hn hs hu⟩
  | closed _ r' _ | telling r' _ | finished r' =>
    obtain ⟨r, hr, hrr⟩ := h
    exact ⟨r, ha r hr, hrr⟩

end Stage

namespace Machine

/-- A machine and the service that has taken turns instead, with the results of the turns. -/
structure Serial (jobs : String → Job) (m : Machine) (u : Service)
    (rs : List (String × Except Failure Answer)) : Prop where
  reachable : Reachable u
  database : u.database = none
  lease : u.lease = none
  names : m.service.store.names = u.store.names
  ledger : m.service.ledger = u.ledger
  tasks : ∀ t, (m.stage t).Follows (jobs t) m.service.store u.store fun r => (t, r) ∈ rs
  same : ∀ x, (∀ t, ¬(m.stage t).Owes x) → m.service.store.plain x = u.store.plain x
  once : (rs.map Prod.fst).Nodup
  turned : ∀ t, t ∈ rs.map Prod.fst ↔ (m.stage t).turned = true

namespace Serial

variable {jobs : String → Job} {m m' : Machine} {u : Service}
  {rs : List (String × Except Failure Answer)} {t : String} {st : Stage}

/-- Before anyone has begun no turn has come. -/
theorem start {v : Service} (h : Reachable v) (hd : v.database = none) (hl : v.lease = none) :
    (Machine.start v).Serial jobs v [] := by
  refine ⟨h, hd, hl, rfl, rfl, fun _ => trivial, fun _ _ => rfl, List.nodup_nil, fun t => ?_⟩
  constructor
  · intro hm
    cases hm
  · intro hs
    cases hs

/-! ### Ways to go on -/

/-- A task goes on, and no turn comes. Until then it owed nothing. -/
theorem quiet (h : m.Serial jobs u rs) (st : Stage) (hstage : m'.stage = (m.put t st).stage)
    (hstore : m'.service.store = m.service.store) (hledger : m'.service.ledger = m.service.ledger)
    (hturned : st.turned = (m.stage t).turned) (howes : ∀ x, ¬(m.stage t).Owes x)
    (ht : st.Follows (jobs t) m.service.store u.store fun r => (t, r) ∈ rs) :
    m'.Serial jobs u rs := by
  refine ⟨h.reachable, h.database, h.lease, by rw [hstore]; exact h.names,
    by rw [hledger]; exact h.ledger, fun t' => ?_, fun x hx => ?_, h.once, fun t' => ?_⟩
  · rw [hstage, hstore]
    by_cases htt : t' = t
    · subst htt
      rw [stage_put_self]
      exact ht
    · rw [stage_put_of_ne htt]
      exact h.tasks t'
  · rw [hstore]
    refine h.same x fun t' => ?_
    by_cases htt : t' = t
    · rw [htt]
      exact howes x
    · have := hx t'
      rwa [hstage, stage_put_of_ne htt] at this
  · rw [h.turned, hstage]
    by_cases htt : t' = t
    · subst htt
      rw [stage_put_self, hturned]
    · rw [stage_put_of_ne htt]

/-- The turn of a task comes. What it leaves it owes, to an escrow that nobody else works on. -/
theorem turn (h : m.Serial jobs u rs) {i : Int} (st : Stage)
    (hstage : m'.stage = (m.put t st).stage) (hstore : m'.service.store = m.service.store)
    (hledger : m'.service.ledger = (u.turn jobs t i).2.ledger)
    (hnames : (u.turn jobs t i).2.store.names = u.store.names)
    (hbefore : (m.stage t).turned = false) (hafter : st.turned = true)
    (hframe : ∀ x, (u.turn jobs t i).2.store.plain x = u.store.plain x ∨
      st.Owes x ∧ ∀ t' ≠ t, (m.stage t').holds = true → (m.stage t').lock? ≠ some x)
    (ht : st.Follows (jobs t) m.service.store (u.turn jobs t i).2.store
      fun r => r = (u.turn jobs t i).1) :
    m'.Serial jobs (u.turn jobs t i).2 (rs ++ [(t, (u.turn jobs t i).1)]) := by
  have hnew : t ∉ rs.map Prod.fst := by
    rw [h.turned, hbefore]
    exact Bool.false_ne_true
  have howes : ∀ x, ¬(m.stage t).Owes x := by
    intro x hx
    revert hbefore hx
    cases m.stage t <;> simp [Stage.turned, Stage.Owes]
  refine ⟨Service.reachable_turn h.reachable i, h.database, h.lease, ?_, hledger, fun t' => ?_,
    fun x hx => ?_, ?_, fun t' => ?_⟩
  · rw [hstore, hnames]
    exact h.names
  · rw [hstage, hstore]
    by_cases htt : t' = t
    · subst htt
      rw [stage_put_self]
      refine ht.congr rfl (fun r hr => ?_) fun x _ _ => ⟨rfl, rfl⟩
      rw [hr]
      exact List.mem_append_right _ (List.mem_singleton.mpr rfl)
    · -- The turn has changed no escrow that another task works on.
      rw [stage_put_of_ne htt]
      refine (h.tasks t').congr rfl (fun r hr => List.mem_append_left _ hr) fun x hs hx => ⟨rfl, ?_⟩
      rcases hframe x with hsame | ⟨-, hothers⟩
      · exact hsame
      · exact absurd hx (hothers t' htt hs)
  · rw [hstore]
    rcases hframe x with hsame | ⟨hst, -⟩
    · rw [hsame]
      refine h.same x fun t' => ?_
      by_cases htt : t' = t
      · rw [htt]
        exact howes x
      · have := hx t'
        rwa [hstage, stage_put_of_ne htt] at this
    · have := hx t
      rw [hstage, stage_put_self] at this
      exact absurd hst this
  · rw [List.map_append, List.nodup_append]
    refine ⟨h.once, by simp, fun a ha b hb hab => ?_⟩
    rw [List.map_singleton, List.mem_singleton] at hb
    rw [hab, hb] at ha
    exact hnew ha
  · rw [List.map_append, List.mem_append, h.turned, List.map_singleton, List.mem_singleton, hstage]
    by_cases htt : t' = t
    · subst htt
      rw [stage_put_self, hafter]
      simp
    · rw [stage_put_of_ne htt]
      simp [htt]

/-- What a task owes is committed. -/
theorem commit (h : m.Serial jobs u rs) (hx : m.Exclusive) {now : Moment} {w : Work} {e : Escrow}
    {k : Conclusion} (hst : m.stage t = .concluded w e k) (hv : k.verdict = .ok ()) :
    (m.close t now w e k).Serial jobs u rs := by
  have htask := h.tasks t
  rw [hst] at htask
  obtain ⟨r, hr, -, howed⟩ := htask
  have howed := howed hv
  obtain ⟨d, by', paid, hd, hsound, rfl, hdeed⟩ := howed.deed
  have hids : (m.service.store.conditions.map (·.id)).Nodup :=
    Store.nodup_of_names h.names h.reachable.kept.conditionsDistinct
  have hcommit := Conclusion.commit_deed now hv hdeed hsound hd
  generalize hn : m.service.counters.events + 1 = n at hcommit
  have hnames := Store.names_written m.service.store now w.escrow n k.writes
  have hothers : ∀ y, y ≠ w.escrow →
      (m.service.store.written now w.escrow n k.writes).part y = m.service.store.part y :=
    fun y hy => Store.part_written_deed hids hdeed hy now n
  rw [close, hcommit]
  refine ⟨h.reachable, h.database, h.lease, hnames.trans h.names, h.ledger, fun t' => ?_,
    fun y hy => ?_, h.once, fun t' => ?_⟩
  · by_cases htt : t' = t
    · subst htt
      rw [stage_put_self]
      exact ⟨r, hr, howed.answer _ hnames (howed.written now n) now⟩
    · -- Nor do the writes concern one, for the task holds the lock.
      rw [stage_put_of_ne htt]
      refine (h.tasks t').congr hnames (fun _ hr => hr) fun y hs hy => ⟨hothers y ?_, rfl⟩
      rintro rfl
      exact htt (hx.unique hs (by rw [hst]; rfl) hy (by rw [hst]; rfl))
  · by_cases hyx : y = w.escrow
    · subst hyx
      exact howed.written now n
    · refine (Store.plain_of_part (hothers y hyx)).trans (h.same y fun t' ht' => ?_)
      by_cases htt : t' = t
      · rw [htt, hst] at ht'
        exact hyx ht'.1.symm
      · have := hy t'
        rw [stage_put_of_ne htt] at this
        exact this ht'
  · rw [h.turned]
    by_cases htt : t' = t
    · subst htt
      rw [stage_put_self, hst]
      rfl
    · rw [stage_put_of_ne htt]

/-! ### What a task finds -/

/-- A condition that is met is met on both sides, for writes that are owed are about another. -/
theorem condition_met (h : m.Serial jobs u rs) {k : Identifier} {c : Condition}
    (hc : m.service.store.condition? k = some c) (hm : c.met = true) :
    ∃ d, u.store.condition? k = some d ∧ d.undated = c.undated := by
  have hmem : c ∈ m.service.store.conditions := List.mem_of_find?_eq_some hc
  have hid : c.id = k := by simpa using List.find?_some hc
  have hids : (m.service.store.conditions.map (·.id)).Nodup :=
    Store.nodup_of_names h.names h.reachable.kept.conditionsDistinct
  have hkm : (k, c.escrow) ∈ m.service.store.names.2 := Store.mem_names_iff.mpr ⟨c, hmem, hid, rfl⟩
  have hku : (k, c.escrow) ∈ u.store.names.2 := h.names ▸ hkm
  obtain ⟨d, hd, -, -⟩ := Store.condition?_of_names h.reachable.kept.conditionsDistinct hku
  -- The condition is as it was in the records of the machine with what is owed to its escrow.
  have found : ∀ s : Store, s.names = m.service.store.names →
      s.plain c.escrow = u.store.plain c.escrow → s.condition? k = some c →
      d.undated = c.undated := by
    intro s hs hplain hsc
    have hcongr := Store.condition?_congr h.reachable.kept.conditionsDistinct
      (Store.nodup_of_names hs hids) hku (hs ▸ hkm) hplain.symm
    rw [hd, hsc] at hcongr
    exact Option.some.inj hcongr
  refine ⟨d, hd, ?_⟩
  by_cases howes : ∃ t, (m.stage t).Owes c.escrow
  · obtain ⟨t, ht⟩ := howes
    have htask := h.tasks t
    cases hst : m.stage t with
    | concluded w e q =>
      rw [hst] at ht htask
      obtain ⟨hw, hv⟩ := ht
      obtain ⟨r, -, -, howed⟩ := htask
      have howed := howed hv
      obtain ⟨d', by', paid, -, -, -, hdeed⟩ := howed.deed
      have hwritten := howed.written (Moment.utc 0) 0
      rw [hw] at hdeed hwritten
      refine found _ (Store.names_written ..) hwritten ?_
      -- The condition that is owed to be met is open, so it is not this one.
      have hsame : q.writes.onCondition (Moment.utc 0) c = c := by
        unfold Writes.onCondition
        split
        next i user hmet =>
          rw [if_neg]
          intro hci
          obtain ⟨c', hc', hci', hopen⟩ := hdeed.met_open hmet
          have hcc : c = c' :=
            List.inj_on_of_nodup_map hids hmem (List.mem_filter.mp hc').1 (hci.trans hci'.symm)
          rw [hcc, hopen] at hm
          cases hm
        next => rfl
      subst hid
      refine (find?_eq_some_iff_mem (Store.nodup_of_names (Store.names_written ..) hids)).mpr ?_
      unfold Store.written
      rw [Store.conditions_enterAll]
      exact List.mem_map.mpr ⟨c, hmem, hsame⟩
    | _ =>
      rw [hst] at ht
      exact ht.elim
  · exact found _ rfl (h.same _ fun t ht => howes ⟨t, ht⟩) hc

/-- Where the machine does not find a condition, there is none. -/
theorem condition_none (h : m.Serial jobs u rs) {k : Identifier}
    (hc : m.service.store.condition? k = none) : u.store.condition? k = none := by
  rw [Store.condition?_eq_none_iff] at hc ⊢
  rw [← h.names]
  exact hc

/-- Nothing is owed to an escrow while a task works on it and does not owe it anything. -/
theorem same_of_holds (h : m.Serial jobs u rs) (hx : m.Exclusive) {x : Identifier}
    (hs : (m.stage t).holds = true) (hl : (m.stage t).lock? = some x) (ho : ¬(m.stage t).Owes x) :
    m.service.store.plain x = u.store.plain x := by
  refine h.same x fun t' ht' => ?_
  obtain ⟨hs', hl'⟩ := ht'.holds
  have htt := hx.unique hs' hs hl' hl
  rw [htt] at ht'
  exact ho ht'

/-! ### The turn of a task -/

/-- What a task has read is what it would read in its turn, up to stamps, and its plan is the
same. -/
structure Reads (m : Machine) (u : Service) (j : Job) (i : Int) (w : Work) (p : Plan)
    (d d' : Escrow) : Prop where
  begins : j.Begins i m.service.store w
  stored : m.service.store.stored? w.escrow = some d
  stored' : u.store.stored? w.escrow = some d'
  sound : d.Sound
  alike : d.undated = d'.undated
  plain : m.service.store.plain w.escrow = u.store.plain w.escrow
  plan : w.plan d.loaded (m.service.store.conditionsOf w.escrow) = p
  plan' : w.plan d'.loaded (u.store.conditionsOf w.escrow) = p

theorem reads (h : m.Serial jobs u rs) (hx : m.Exclusive) {w : Work} {e : Escrow} {p : Plan}
    (hst : m.stage t = .reading w e p) :
    ∃ i d d', d.loaded = e ∧ Reads m u (jobs t) i w p d d' := by
  have htask := h.tasks t
  rw [hst] at htask
  obtain ⟨⟨i, hw⟩, he, rfl⟩ := htask
  have hplain : m.service.store.plain w.escrow = u.store.plain w.escrow :=
    h.same_of_holds hx (by rw [hst]; rfl) (by rw [hst]; rfl) (by rw [hst]; exact id)
  obtain ⟨d, hd, rfl⟩ := Option.map_eq_some_iff.mp he
  have hdu := Store.stored?_of_plain hplain
  rw [hd, Option.map_some, eq_comm, Option.map_eq_some_iff] at hdu
  obtain ⟨d', hd', hdd⟩ := hdu
  have hsound : d'.Sound := h.reachable.kept.sound d' (List.mem_of_find?_eq_some hd')
  have hloaded : d.loaded.undated = d'.loaded.undated := congrArg Escrow.loaded hdd.symm
  have hplan := hw.plan_congr hloaded (Store.plain_eq_iff.mp hplain).2.1
  exact ⟨i, d, d', rfl, hw, hd, hd', hsound.of_undated hdd.symm, hdd.symm, hplain, rfl, hplan.symm⟩

/-- The turn of a task that is refused. -/
theorem conclude_error (h : m.Serial jobs u rs) {i : Int} {w : Work} {p : Plan} {d d' : Escrow}
    {f : Failure} (hr : Reads m u (jobs t) i w p d d')
    (hst : m.stage t = .reading w d.loaded p)
    (hv : (p.conclude m.service.ask).verdict = .error f) :
    (m.conclude t w d.loaded p).Serial jobs (u.turn jobs t i).2
      (rs ++ [(t, (u.turn jobs t i).1)]) := by
  have hturn := Service.turn_of_error h.reachable.kept h.database h.lease
    (hr.begins.congr h.names.symm) hr.stored' (by rw [hr.plan', ← Service.ask_congr h.ledger]) hv
  refine h.turn (.concluded w d.loaded (p.conclude m.service.ask)) rfl rfl ?_ ?_
    (by rw [hst]; rfl) rfl (fun x => ?_) ?_ <;> rw [hturn]
  · show Service.ledgerAfter m.service.ledger _ = _
    rw [h.ledger]
  · rfl
  · exact .inl rfl
  · refine ⟨_, rfl, fun g hg => ?_, fun hok => ?_⟩
    · rw [hv] at hg
      cases hg
      rfl
    · rw [hv] at hok
      cases hok

/-- The turn of a task that goes through: it owes what the turn has left. -/
theorem conclude_ok (h : m.Serial jobs u rs) (hx : m.Exclusive) {i : Int} {w : Work} {p : Plan}
    {d d' : Escrow} (hr : Reads m u (jobs t) i w p d d')
    (hst : m.stage t = .reading w d.loaded p)
    (hv : (p.conclude m.service.ask).verdict = .ok ()) :
    (m.conclude t w d.loaded p).Serial jobs (u.turn jobs t i).2
      (rs ++ [(t, (u.turn jobs t i).1)]) := by
  have hkept := h.reachable.kept
  have hids := Store.nodup_of_names h.names hkept.conditionsDistinct
  have hask : m.service.ask = u.ask := Service.ask_congr h.ledger
  have hw' := hr.begins.congr h.names.symm
  have hturn := Service.turn_of_ok hkept h.database h.lease hw' hr.stored'
    (by rw [hr.plan', ← hask]) hv
  obtain ⟨paid, hdeed, -, -⟩ := hr.begins.isDeed hr.sound
    (m.service.store.conditionsOf w.escrow) (by rw [hr.plan]; exact hv)
  obtain ⟨paid', hdeed', -, -⟩ := hw'.isDeed
    (hkept.sound d' (List.mem_of_find?_eq_some hr.stored')) (u.store.conditionsOf w.escrow)
    (by rw [hr.plan']; exact hv)
  rw [hr.plan] at hdeed
  rw [hr.plan'] at hdeed'
  -- The deed is owed on the records of the turn, which has the same names but other marks.
  refine h.turn (.concluded w d.loaded (p.conclude m.service.ask)) rfl rfl ?_ ?_
    (by rw [hst]; rfl) rfl (fun x => ?_) ?_ <;> rw [hturn]
  · show Service.ledgerAfter m.service.ledger _ = _
    rw [h.ledger]
  · exact Store.names_written ..
  · by_cases hxw : x = w.escrow
    · subst hxw
      refine .inr ⟨⟨rfl, hv⟩, fun t' htt hs hl => htt ?_⟩
      exact hx.unique hs (by rw [hst]; rfl) hl (by rw [hst]; rfl)
    · exact .inl (Store.plain_of_part
        (Store.part_written_deed hkept.conditionsDistinct hdeed' hxw _ _))
  · refine ⟨_, rfl, fun g hg => ?_, fun _ =>
      ⟨⟨d, _, paid, hr.stored, hr.sound, rfl, hdeed⟩, ?_, ?_⟩⟩
    · rw [hv] at hg
      cases hg
    · intro now n
      exact Store.plain_written hr.plain ..
    · intro s hs hplain now
      have hnames := (Store.names_written u.store (Moment.utc i) w.escrow (u.counters.events + 1)
        (p.conclude m.service.ask).writes).trans (h.names.symm.trans hs.symm)
      have hloaded : d.loaded.undated = d'.loaded.undated := congrArg Escrow.loaded hr.alike
      have hanswer := (hr.begins.congr hs).answer_congr (Store.nodup_of_names hs hids) hnames hplain
        ((p.conclude m.service.ask).writes.view_congr now (Moment.utc i) hloaded)
      exact congrArg Except.ok hanswer

/-- When a task hears from the ledger, or is refused, its turn comes. -/
theorem conclude (h : m.Serial jobs u rs) (hx : m.Exclusive) {w : Work} {e : Escrow} {p : Plan}
    (hst : m.stage t = .reading w e p) :
    ∃ i, (m.conclude t w e p).Serial jobs (u.turn jobs t i).2
      (rs ++ [(t, (u.turn jobs t i).1)]) := by
  obtain ⟨i, d, d', rfl, hr⟩ := h.reads hx hst
  refine ⟨i, ?_⟩
  cases hv : (p.conclude m.service.ask).verdict with
  | error f => exact h.conclude_error hr hst hv
  | ok _ => exact h.conclude_ok hx hr hst hv

/-! ### Steps -/

/-- A machine that goes on, while some turns come. -/
def GoesOn (jobs : String → Job) (u : Service) (rs : List (String × Except Failure Answer))
    (m : Machine) : Prop :=
  ∃ order, m.Serial jobs (u.serially jobs order).1 (rs ++ (u.serially jobs order).2)

theorem goesOn (h : m.Serial jobs u rs) : GoesOn jobs u rs m :=
  ⟨[], by rw [Service.serially, List.append_nil]; exact h⟩

theorem goesOn_turn {i : Int}
    (h : m.Serial jobs (u.turn jobs t i).2 (rs ++ [(t, (u.turn jobs t i).1)])) :
    GoesOn jobs u rs m :=
  ⟨[(t, i)], h⟩

/-- A turn in which nothing is found, or nothing is left to do, leaves no trace but its result. -/
theorem goesOn_answer (h : m.Serial jobs u rs) {i : Int} {r : Except Failure Answer}
    (hturn : u.turn jobs t i = (r, { u with clock := i })) (hstage : m'.stage = (m.put t st).stage)
    (hservice : m'.service = m.service) (hbefore : (m.stage t).turned = false)
    (hafter : st.turned = true)
    (ht : st.Follows (jobs t) m.service.store u.store fun r' => r' = r) : GoesOn jobs u rs m' := by
  refine goesOn_turn (t := t) (i := i) (h.turn st hstage (by rw [hservice]) ?_ ?_ hbefore hafter
    (fun x => .inl ?_) ?_) <;> rw [hturn]
  · rw [hservice]
    exact h.ledger
  · exact ht

/-- A task begins. It creates nothing. -/
theorem begin (h : m.Serial jobs u rs) (hst : m.stage t = .ready)
    (hjob : ∀ n, (jobs t).op ≠ .create n) (clock : Int) :
    GoesOn jobs u rs (m.begin t (Moment.utc clock) (jobs t)) := by
  have hready : ∀ x, ¬(m.stage t).Owes x := fun x => by rw [hst]; exact id
  have hbefore : (m.stage t).turned = false := by rw [hst]; rfl
  unfold Machine.begin
  cases hop : (jobs t).op with
  | create n => exact absurd hop (hjob n)
  | task x a =>
    exact goesOn (h.quiet (.asking _) rfl rfl rfl hbefore.symm hready ⟨clock, .task hop⟩)
  | confirm k =>
    cases hk : m.service.store.condition? k with
    | none =>
      have hturn := Service.turn_of_confirm_none clock h.database hop (h.condition_none hk)
      simp only [hk]
      exact h.goesOn_answer hturn rfl rfl hbefore rfl ⟨_, rfl, rfl⟩
    | some c =>
      have hid : c.id = k := by simpa using List.find?_some hk
      simp only [hk]
      -- A met condition is the whole answer, so the turn is over; an open one has yet to get its lock.
      by_cases hm : c.met = true
      · obtain ⟨d, hd, hdc⟩ := h.condition_met hk hm
        have hdm : d.met = true := (congrArg Condition.met hdc).trans hm
        have hturn := Service.turn_of_confirm_met clock h.database hop hd hdm
        rw [if_pos hm]
        refine h.goesOn_answer hturn rfl rfl hbefore rfl ⟨_, rfl, ?_⟩
        exact congrArg (fun a => Except.ok (Answer.condition a)) hdc.symm
      · rw [if_neg hm]
        subst hid
        have hmem := Store.mem_names_iff.mpr ⟨c, List.mem_of_find?_eq_some hk, rfl, rfl⟩
        exact goesOn (h.quiet (.asking _) rfl rfl rfl hbefore.symm hready
          ⟨clock, .confirmation hop hmem⟩)

/-- A task that has its lock reads. -/
theorem read (h : m.Serial jobs u rs) {w : Work} (hst : m.stage t = .waiting w) :
    GoesOn jobs u rs (m.read t w) := by
  have hbefore : (m.stage t).turned = false := by rw [hst]; rfl
  obtain ⟨i, hw⟩ : ∃ i, (jobs t).Begins i m.service.store w := by
    have htask := h.tasks t
    rw [hst] at htask
    exact htask
  unfold Machine.read
  cases he : m.service.store.escrow? w.escrow with
  | none =>
    have hnone : u.store.escrow? w.escrow = none := by
      -- The turn knows the same names, so it does not find the escrow either.
      rw [Store.escrow?, Option.map_eq_none_iff, Store.stored?_eq_none_iff] at he ⊢
      rw [← h.names]
      exact he
    have hturn := Service.turn_of_none h.reachable.kept h.database h.lease (hw.congr h.names.symm)
      hnone
    exact h.goesOn_answer hturn rfl rfl hbefore rfl ⟨_, rfl, rfl⟩
  | some e =>
    refine goesOn (h.quiet (.reading w e _) rfl rfl rfl hbefore.symm ?_ ⟨⟨i, hw⟩, he, rfl⟩)
    intro x
    rw [hst]
    exact id

/-- Every step of a task is a turn, or none. -/
theorem step (h : m.Serial jobs u rs) (hx : m.Exclusive) (hjob : ∀ n, (jobs t).op ≠ .create n)
    (clock : Int) : GoesOn jobs u rs (m.step jobs t clock) := by
  have htask := h.tasks t
  -- Its turn comes where a task is answered or concludes; every other step only moves it on.
  cases hst : m.stage t with
  | ready =>
    rw [step_ready hst]
    exact h.begin hst hjob clock
  | asking w =>
    rw [hst] at htask
    rw [step_asking hst]
    refine goesOn (h.quiet (.waiting w) rfl rfl rfl ?_ ?_ htask) <;> rw [hst]
    · rfl
    · exact fun _ => id
  | waiting w =>
    by_cases hl : (m.locks.lock w.escrow.text).holder = some t
    · rw [step_waiting hst hl]
      exact h.read hst
    · rw [step_blocked hst hl]
      exact h.goesOn
  | reading w e p =>
    rw [step_reading hst]
    obtain ⟨i, hi⟩ := h.conclude hx hst
    exact goesOn_turn hi
  | concluded w e k =>
    rw [hst] at htask
    rw [step_concluded hst]
    cases hv : k.verdict with
    | ok _ => exact goesOn (h.commit hx hst hv)
    | error f =>
      obtain ⟨r, hr, herror, -⟩ := htask
      have hcommit := Conclusion.commit_error (v := m.service) (w := w) (e := e)
        (Moment.utc clock) hv
      rw [close, hcommit]
      refine goesOn (h.quiet (.closed w.escrow (.error f) none) rfl rfl rfl ?_ ?_ ?_)
      · rw [hst]
        rfl
      · rw [hst]
        rintro x ⟨-, hok⟩
        rw [hv] at hok
        cases hok
      · exact ⟨r, hr, by rw [herror f hv]⟩
  | closed x r note =>
    rw [hst] at htask
    rw [step_closed hst]
    refine goesOn (h.quiet (.telling r note) rfl rfl rfl ?_ ?_ htask) <;> rw [hst]
    · rfl
    · exact fun _ => id
  | telling r note =>
    rw [hst] at htask
    rw [step_telling hst]
    refine goesOn (h.quiet (.finished r) rfl rfl rfl ?_ ?_ htask) <;> rw [hst]
    · rfl
    · exact fun _ => id
  | finished r =>
    rw [step_finished hst]
    exact h.goesOn

/-- So are all steps of all tasks, in whatever order. -/
theorem run (h : m.Serial jobs u rs) (hx : m.Exclusive) {schedule : List (String × Int)}
    (hjobs : ∀ a ∈ schedule, ∀ n, (jobs a.1).op ≠ .create n) :
    GoesOn jobs u rs (m.run jobs schedule) := by
  induction schedule generalizing m u rs with
  | nil => exact h.goesOn
  | cons a schedule ih =>
    obtain ⟨first, hfirst⟩ := h.step (t := a.1) hx (hjobs a (List.mem_cons_self ..)) a.2
    obtain ⟨rest, hrest⟩ := ih hfirst hx.step fun b hb => hjobs b (List.mem_cons_of_mem _ hb)
    refine ⟨first ++ rest, ?_⟩
    rw [Service.serially_append, ← List.append_assoc]
    exact hrest

end Serial

end Machine

end Custody

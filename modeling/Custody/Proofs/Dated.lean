import Custody.Proofs.Terms

/-!
# Moments that a calendar has

Whether a deadline is over is judged by the second of UTC in which it lies, and there is none for a
moment beyond the years of the calendar. A deadline that a clock could show is kept without its
distance from UTC, so what is read back lies within these years, whatever the distance was. For that
the moments that are handed in have to be ones that a clock can show, as all date-times are.

> `Dated.timely`: then every deadline on record is one.
> `Store.Timely.normalize`: and it has a second of UTC.
-/

namespace Custody

/-- A new deadline, if the operation sets one, is what a clock can show. -/
def Operation.Dated : Operation → Prop
  | .create n => ∀ m, n.deadline = some m → Moment.wallInRange m.wall = true
  | .task _ (.update r) => ∀ m, r.deadline = some (some m) → Moment.wallInRange m.wall = true
  | _ => True

/-- What happens is told with moments that a clock can show. -/
def Happening.Dated : Happening → Prop
  | .operation _ op => op.Dated
  | .clock i => Moment.wallInRange i = true
  | _ => True

/-- The services that runs lead to in which every moment is one that a clock can show. -/
inductive Dated : Service → Prop
  | start {clock : Int} (settings : Settings) (dispatcher : Dispatcher) (lease : Option Lease)
      (h : Moment.wallInRange clock = true) : Dated (Service.start clock settings dispatcher lease)
  | step {v : Service} {a : Happening} (ha : a.Dated) : Dated v → Dated (v.after a)

theorem Dated.reachable {v : Service} (h : Dated v) : Reachable v := by
  induction h with
  | start settings dispatcher lease _ => exact .start _ settings dispatcher lease
  | step _ _ ih => exact .step _ ih

theorem Dated.run {v : Service} (h : Dated v) {hs : List Happening} (hd : ∀ a ∈ hs, a.Dated) :
    Dated (v.run hs) := by
  induction hs generalizing v with
  | nil => exact h
  | cons a hs ih =>
    exact ih (.step (hd a List.mem_cons_self) h) fun b hb => hd b (List.mem_cons_of_mem _ hb)

/-- Every deadline on record is what a clock can show. -/
def Store.Timely (s : Store) : Prop :=
  ∀ e ∈ s.escrows, ∀ m, e.deadline = some m → Moment.wallInRange m.wall = true

/-- Without its distance from UTC a moment that a clock can show has a second of UTC. -/
theorem Moment.normalize?_withoutOffset {m : Moment} (h : wallInRange m.wall = true) :
    m.withoutOffset.normalize? = some (utc (floorSecond m.wall)) := by
  have hi : m.withoutOffset.instant = m.wall := Int.sub_zero m.wall
  rw [normalize?, hi, if_pos h]

/-- So has every deadline that is read back. -/
theorem Store.Timely.normalize {s : Store} (h : s.Timely) {x : Identifier} {e : Escrow}
    (he : s.escrow? x = some e) :
    normalizeMoment e.deadline =
      .ok (e.deadline.map fun m => Moment.utc (Moment.floorSecond m.wall)) := by
  obtain ⟨d, hd, rfl⟩ := Option.map_eq_some_iff.mp he
  have hmem := List.mem_of_find?_eq_some hd
  cases hm : d.deadline with
  | none => simp [Escrow.loaded, hm, normalizeMoment]
  | some m =>
    simp only [Escrow.loaded, hm, Option.map_some, normalizeMoment,
      Moment.normalize?_withoutOffset (h d hmem m hm)]
    rfl

/-! ## Writes -/

/-- The deadlines that writes set are what a clock can show. -/
def Writes.Timely (w : Writes) : Prop :=
  ∀ cs m, w.patch = some (.terms cs) → .deadline (some m) ∈ cs → Moment.wallInRange m.wall = true

section Writes

variable {e : Escrow} {w : Writes} {by' : Caller}

theorem deadline_foldl_apply {cs : List Change} {m : Moment}
    (h : (cs.foldl Change.apply e).deadline = some m) :
    e.deadline = some m ∨ .deadline (some m) ∈ cs := by
  induction cs generalizing e with
  | nil => exact .inl h
  | cons c cs ih =>
    rcases ih h with h | h
    · cases c with
      | deadline d =>
        obtain rfl : d = some m := h
        exact .inr List.mem_cons_self
      | _ => exact .inl h
    · exact .inr (List.mem_cons_of_mem _ h)

/-- A record has the deadline that it had, or one that was set. -/
theorem Writes.Timely.view (hw : w.Timely)
    (he : ∀ m, e.deadline = some m → Moment.wallInRange m.wall = true) (now : Moment) {m : Moment}
    (hm : (w.view now e).deadline = some m) : Moment.wallInRange m.wall = true := by
  unfold Writes.view at hm
  split at hm
  next p hp =>
    cases p with
    | terms cs => exact (deadline_foldl_apply hm).elim (he m) (hw cs m hp)
    | _ => exact he m hm
  next => exact he m hm

theorem deadline_mem_changesOf {r : UpdateRequest} {m : Moment}
    (h : .deadline (some m) ∈ changesOf e r) : r.deadline = some (some m) := by
  unfold changesOf at h
  rcases List.mem_append.mp h with h | h
  · rcases List.mem_append.mp h with h | h <;> split at h
    · split at h <;> simp at h
    · cases h
    · split at h <;> simp at h
    · cases h
  · split at h
    next d hd =>
      split at h
      next => cases h
      next =>
        cases List.mem_singleton.mp h
        exact hd
    next => cases h

/-- Only an update changes terms, and it changes what it is asked to. -/
theorem terms_of_task {t : Task} {now : Moment} {cs : List Condition}
    {ask : SettleRequest → LedgerAnswer} {changes : List Change}
    (hv : ((t.plan now by' e cs).conclude ask).verdict = .ok ())
    (hp : ((t.plan now by' e cs).conclude ask).writes.patch = some (.terms changes)) :
    ∃ r, t = .update r ∧ changes = changesOf e r := by
  obtain ⟨paid, hd, -, -⟩ := Task.isDeed hv
  obtain ⟨-, d, hdrafts, htype⟩ := hd.pending_of_preparation hp rfl
  have hentry := (Plan.enters_task t now).conclude d (by rw [hdrafts]; exact List.mem_cons_self)
  rw [htype] at hentry
  cases t with
  | update r =>
    obtain ⟨w, hw, hk⟩ := Plan.conclude_ofWrites hv
    have hp : w.patch = some (.terms changes) := (congrArg (fun k => k.writes.patch) hk).symm.trans hp
    unfold planUpdate at hw
    obtain ⟨_, -, hw⟩ := Except.bind_eq_ok_iff.mp hw
    simp only at hw
    split at hw
    next =>
      cases hw
      cases hp
    next =>
      cases hw
      cases hp
      exact ⟨r, rfl, rfl⟩
  | _ => simp [Task.entries] at hentry

/-- A confirmation changes none. -/
theorem terms_of_confirmation {k : Identifier} {cs : List Condition}
    {ask : SettleRequest → LedgerAnswer} (hr : e.released = true → e.status = .completed)
    (hv : ((planConfirmation k by' e cs).conclude ask).verdict = .ok ()) (changes : List Change) :
    ((planConfirmation k by' e cs).conclude ask).writes.patch ≠ some (.terms changes) := by
  intro hp
  obtain ⟨paid, hd, -, -⟩ := isDeed_planConfirmation hr hv
  obtain ⟨-, d, hdrafts, htype⟩ := hd.pending_of_preparation hp rfl
  have hentry := (Plan.enters_confirmation k).conclude d
    (by rw [hdrafts]; exact List.mem_cons_self)
  rw [htype] at hentry
  simp [Operation.entries] at hentry

/-- So only an update sets a deadline, the one that it asks for. -/
theorem timely_task {t : Task} {now : Moment} {cs : List Condition}
    {ask : SettleRequest → LedgerAnswer} (x : Identifier) (ht : (Operation.task x t).Dated)
    (hv : ((t.plan now by' e cs).conclude ask).verdict = .ok ()) :
    ((t.plan now by' e cs).conclude ask).writes.Timely := by
  intro changes m hp hm
  obtain ⟨r, rfl, rfl⟩ := terms_of_task hv hp
  exact ht m (deadline_mem_changesOf hm)

/-- And a confirmation sets none. -/
theorem timely_confirmation {k : Identifier} {cs : List Condition}
    {ask : SettleRequest → LedgerAnswer} (hr : e.released = true → e.status = .completed)
    (hv : ((planConfirmation k by' e cs).conclude ask).verdict = .ok ()) :
    ((planConfirmation k by' e cs).conclude ask).writes.Timely :=
  fun changes _ hp _ => absurd hp (terms_of_confirmation hr hv changes)

end Writes

/-! ## Transactions -/

section Transactions

variable {env : Surroundings} {x : Identifier} {plan : Escrow → List Condition → Plan} {s : Store}
  {c : Counters}

theorem timely_carryOut (hs : s.Timely)
    (hplan : ∀ e, s.escrow? x = some e →
      ((plan e (s.conditionsOf x)).conclude env.ask).verdict = .ok () →
      ((plan e (s.conditionsOf x)).conclude env.ask).writes.Timely) :
    (carryOut env x plan s c).store.Timely := by
  cases hr : (carryOut env x plan s c).result with
  | error f =>
    rw [carryOut_store_of_error hr]
    exact hs
  | ok e' =>
    obtain ⟨e, he, hv, hstore⟩ := carryOut_eq_ok hr
    rw [hstore]
    intro d hd m hm
    rw [Store.escrows_enterAll] at hd
    obtain ⟨a, ha, rfl⟩ := List.mem_map.mp hd
    unfold Writes.onRecord at hm
    split at hm
    next => exact (hplan e he hv).view (hs a ha) env.now hm
    next => exact hs a ha m hm

theorem timely_underLock {α : Type} {work : Store → Counters → Outcome α} (hs : s.Timely)
    (hw : (work s c).store.Timely) : (underLock env x work s c).store.Timely := by
  unfold underLock
  split
  next => exact hs
  next =>
    cases env.database with
    | some f => exact hs
    | none => exact hw

/-- Operations keep it so that every deadline is what a clock can show. -/
theorem Operation.timely_run {by' : Caller} {op : Operation} (hop : op.Dated) (hs : s.Timely)
    (hsound : ∀ e ∈ s.escrows, e.Sound) (seen : Store) :
    (op.run env by' seen s c).store.Timely := by
  cases op with
  | create n =>
    cases hr : (createEscrow env by' n s c).result with
    | error f =>
      simp only [Operation.run, Outcome.store_mapResult, createEscrow_store_of_error hr]
      exact hs
    | ok e =>
      obtain ⟨ps, t, asset, cs, hn, hf, he, hc, hstore⟩ := Service.createEscrow_ok hr
      simp only [Operation.run, Outcome.store_mapResult, hstore]
      intro d hd m hm
      rcases List.mem_append.mp hd with hd | hd
      · exact hs d hd m hm
      · rw [List.mem_singleton.mp hd, he] at hm
        exact hop m hm
  | task x t =>
    simp only [Operation.run, Outcome.store_mapResult]
    exact timely_underLock hs (timely_carryOut hs fun e _ hv => timely_task x hop hv)
  | confirm k =>
    simp only [Operation.run, confirmCondition]
    split
    next => exact hs
    next =>
      split
      next => exact hs
      next q _ =>
        split
        next => exact hs
        next =>
          -- A confirmation sets no deadline, but its plan is known only for sound records.
          refine timely_underLock hs (timely_carryOut hs fun e he hv => ?_)
          obtain ⟨d, hd, rfl⟩ := Option.map_eq_some_iff.mp he
          have hsd := hsound d (List.mem_of_find?_eq_some hd)
          exact timely_confirmation (fun hr => hsd.released_iff.mp hr) hv

end Transactions

/-! ## Runs -/

/-- Every deadline on record is what a clock can show. -/
theorem Dated.timely {v : Service} (h : Dated v) : v.store.Timely := by
  induction h with
  | start => exact fun _ he => nomatch he
  | @step v a ha hv ih =>
    cases a with
    | operation by' op => exact Operation.timely_run ha ih hv.reachable.kept.sound _
    | _ => exact ih

/-- So is the clock. -/
theorem Dated.clock {v : Service} (h : Dated v) : Moment.wallInRange v.clock = true := by
  induction h with
  | start _ _ _ h => exact h
  | @step v a ha _ ih =>
    cases a with
    | clock i => exact ha
    | _ => exact ih

theorem soldService_dated : Dated soldService := by
  refine (Dated.start Settings.usual .recorder none (by decide)).run fun a ha => ?_
  rcases List.mem_cons.mp ha with rfl | ha
  · exact fun m hm => nomatch hm
  · rw [List.mem_singleton.mp ha]
    exact trivial

end Custody

import Custody.Proofs.Consistency
import Custody.Proofs.Overdue
import Custody.Proofs.Revision

/-!
# Which deadline is kept

A deadline is agreed as a moment, which may be told with an offset from UTC. The answer to who sets it
tells it so. On record it is kept as the clock showed it, and whoever reads it takes that for UTC: the
responses, the check against the ledger, and the expiry. So it is the agreed instant for a deadline without
an offset or with that of UTC, and one that is off by the offset for every other: late where the clock is
ahead of UTC, and early where it is behind.

> `Operation.stored?_run`: what an operation makes of a record, and which one changes its terms.
> `Records.deadline_run`: a deadline on record stays until another one is set.
> `deadline_kept`: what becomes of a deadline that has been set.
-/

namespace Custody

/-! ## Records -/

section Transactions

variable {env : Surroundings} {x : Identifier} {s : Store} {c : Counters} {e : Escrow}

/-- A transaction leaves a record as it was, or with what its plan writes if it is about that one. -/
theorem stored?_carryOut (env : Surroundings) (y : Identifier) (plan : Escrow → List Condition → Plan)
    (c : Counters) (he : s.stored? x = some e) :
    (carryOut env y plan s c).store.stored? x = some e ∨
      y = x ∧ ((plan e.loaded (s.conditionsOf x)).conclude env.ask).verdict = .ok () ∧
        (carryOut env y plan s c).store.stored? x =
          some (((plan e.loaded (s.conditionsOf x)).conclude env.ask).writes.view env.now e) := by
  cases hr : (carryOut env y plan s c).result with
  | error f =>
    rw [carryOut_store_of_error hr]
    exact .inl he
  | ok a =>
    obtain ⟨d, hread, hv, hstore⟩ := carryOut_eq_ok hr
    rw [hstore]
    by_cases hyx : y = x
    · subst hyx
      obtain rfl : e.loaded = d :=
        Option.some.inj ((Store.escrow?_of_stored? he).symm.trans hread)
      have hid : e.id = y := by simpa using List.find?_some he
      subst hid
      exact .inr ⟨rfl, hv, Store.stored?_changed he ..⟩
    · left
      rw [Store.stored?_changed_of_ne _ (Ne.symm hyx), he]

/-- Under a lock nothing else happens. -/
theorem store_underLock {α : Type} (env : Surroundings) (x : Identifier)
    (work : Store → Counters → Outcome α) (s : Store) (c : Counters) :
    (underLock env x work s c).store = s ∨ (underLock env x work s c).store = (work s c).store := by
  unfold underLock
  split
  next => exact .inl rfl
  next =>
    cases env.database with
    | some f => exact .inl rfl
    | none => exact .inr rfl

/-- An operation leaves a record as it was or writes it anew, and only an update of the escrow writes
terms: the changes that it asks for. -/
theorem Operation.stored?_run {by' : Caller} {op : Operation} {seen : Store}
    (hsound : ∀ e ∈ s.escrows, e.Sound) (he : s.stored? x = some e) :
    (op.run env by' seen s c).store.stored? x = some e ∨
      ∃ w : Writes, (op.run env by' seen s c).store.stored? x = some (w.view env.now e) ∧
        ∀ changes, w.patch = some (.terms changes) →
          ∃ u, op = .task x (.update u) ∧ changes = changesOf e.loaded u := by
  cases op with
  | create n =>
    left
    cases hr : (createEscrow env by' n s c).result with
    | error f =>
      simp only [run, Outcome.store_mapResult, createEscrow_store_of_error hr, he]
    | ok a =>
      obtain ⟨ps, t, asset, cs, -, -, -, -, hstore⟩ := Service.createEscrow_ok hr
      simp only [run, Outcome.store_mapResult, hstore]
      show (s.escrows ++ [a]).find? _ = _
      -- What is made stands behind all that is there, so the record is still found first.
      rw [List.find?_append, show s.escrows.find? _ = some e from he]
      rfl
  | task y t =>
    simp only [run, Outcome.store_mapResult]
    rcases store_underLock env y _ s c with h | h
    · rw [h]
      exact .inl he
    · rw [h]
      rcases stored?_carryOut env y (fun r cs => t.plan env.now by' r cs) c he with h | ⟨rfl, hv, h⟩
      · exact .inl h
      · refine .inr ⟨_, h, fun changes hp => ?_⟩
        obtain ⟨u, rfl, rfl⟩ := terms_of_task hv hp
        exact ⟨u, rfl, rfl⟩
  | confirm k =>
    simp only [run, confirmCondition]
    split
    next => exact .inl he
    next =>
      split
      next => exact .inl he
      next q _ =>
        split
        next => exact .inl he
        next =>
          simp only [Outcome.store_mapResult]
          rcases store_underLock env q.escrow (carryOut env q.escrow (planConfirmation k by')) s c
            with h | h
          · rw [h]
            exact .inl he
          · rw [h]
            rcases stored?_carryOut env q.escrow (planConfirmation k by') c he with h | ⟨-, hv, h⟩
            · exact .inl h
            · have hsound := hsound e (List.mem_of_find?_eq_some he)
              exact .inr ⟨_, h, fun changes hp => absurd hp
                (terms_of_confirmation (e := e.loaded) (fun hr => hsound.released_iff.mp hr) hv changes)⟩

end Transactions

/-! ## Deadlines -/

/-- An operation asks for another deadline of an escrow, or for none. -/
def Operation.Redates (op : Operation) (x : Identifier) : Prop :=
  ∃ u, op = .task x (.update u) ∧ u.deadline ≠ none

/-- An attempt sets the deadline of an escrow, with which it is created or by an update, and answers with
the escrow. -/
inductive Attempt.Sets (a : Attempt) (r : Records) (x : Identifier) (d : Moment) (e : Escrow) : Prop
  | created {n : NewEscrow} (hop : a.op = .create n) (hd : n.deadline = some d)
      (hr : (r.outcome a).result = .ok (.escrow e)) (hx : e.id = x)
  | updated {u : UpdateRequest} (hop : a.op = .task x (.update u)) (hd : u.deadline = some (some d))
      (hr : (r.outcome a).result = .ok (.escrow e))

/-- Attempts leave the deadline of an escrow: one that asks for another fails. -/
def Records.LeavesDeadline (r : Records) (x : Identifier) : List Attempt → Prop
  | [] => True
  | a :: as => (a.op.Redates x → ∃ f, (r.outcome a).result = .error f) ∧
      (r.after a).LeavesDeadline x as

section Deadlines

variable {r : Records} {x : Identifier} {e : Escrow}

/-- What leaves the deadline leaves the one that is read. -/
theorem Records.deadline_after (hk : Kept r.store r.counters) (he : r.store.escrow? x = some e)
    {a : Attempt} (ha : a.op.Redates x → ∃ f, (r.outcome a).result = .error f) :
    ∃ e', (r.after a).store.escrow? x = some e' ∧ e'.deadline = e.deadline := by
  -- An attempt to set a deadline is refused here, and leaves the records as they are.
  by_cases hop : a.op.Redates x
  · obtain ⟨f, hf⟩ := ha hop
    have hstore : (r.after a).store = r.store := Operation.run_store_of_error hf
    exact ⟨e, by rw [hstore, he], rfl⟩
  obtain ⟨d, hd, rfl⟩ := Option.map_eq_some_iff.mp he
  have hrun : (r.after a).store.stored? x = some d ∨
      ∃ w : Writes, (r.after a).store.stored? x = some (w.view a.env.now d) ∧
        ∀ changes, w.patch = some (.terms changes) →
          ∃ u, a.op = .task x (.update u) ∧ changes = changesOf d.loaded u :=
    Operation.stored?_run hk.sound hd
  rcases hrun with hsame | ⟨w, hwritten, hterms⟩
  · exact ⟨d.loaded, Store.escrow?_of_stored? hsame, rfl⟩
  · refine ⟨(w.view a.env.now d).loaded, by rw [Store.escrow?, hwritten]; rfl, ?_⟩
    unfold Writes.view
    split
    next p hp =>
      cases p with
      | terms changes =>
        obtain ⟨u, hu, rfl⟩ := hterms changes hp
        have hnone : u.deadline = none := by
          by_contra hsome
          exact hop ⟨u, hu, hsome⟩
        have hread := congrArg Escrow.deadline (loaded_foldl_changesOf d u)
        rw [UpdateRequest.revise, hnone] at hread
        exact hread
      | _ => rfl
    next => rfl

/-- So do attempts that leave it, one after another. -/
theorem Records.deadline_run (hk : Kept r.store r.counters) (he : r.store.escrow? x = some e)
    {as : List Attempt} (has : r.LeavesDeadline x as) :
    ∃ e', (r.run as).store.escrow? x = some e' ∧ e'.deadline = e.deadline := by
  induction as generalizing r e with
  | nil => exact ⟨e, he, rfl⟩
  | cons a as ih =>
    obtain ⟨ha, hrest⟩ := has
    obtain ⟨e', he', hkept⟩ := deadline_after hk he ha
    obtain ⟨e'', he'', hlater⟩ := ih (kept_after hk a) he' hrest
    exact ⟨e'', he'', hlater.trans hkept⟩

/-- A creation answers with the escrow that it makes. -/
theorem Records.created_iff {env : Surroundings} {by' : Caller} {n : NewEscrow} :
    (r.outcome ⟨env, by', .create n⟩).result = .ok (.escrow e) ↔
      (createEscrow env by' n r.store r.counters).result = .ok e := by
  show (createEscrow env by' n r.store r.counters).result.map Answer.escrow = _ ↔ _
  cases (createEscrow env by' n r.store r.counters).result with
  | ok a => simp [Except.map]
  | error f => simp [Except.map]

/-- The answer tells a deadline as it was set, the record as the clock showed it. -/
theorem Attempt.Sets.deadline {a : Attempt} {d : Moment} (h : a.Sets r x d e)
    (hk : Kept r.store r.counters) :
    e.deadline = some d ∧
      ∃ e', (r.after a).store.escrow? x = some e' ∧ e'.deadline = some d.withoutOffset := by
  obtain ⟨env, by', op⟩ := a
  -- The answer has the deadline as it came; the record is read back without its offset.
  cases h with
  | @created n hop hd hr hx =>
    cases hop
    subst hx
    obtain ⟨ps, t, asset, cs, -, -, hrecord, -, hstore⟩ :=
      Service.createEscrow_ok (Records.created_iff.mp hr)
    have hdeadline : e.deadline = some d := by rw [hrecord]; exact hd
    have hmem : e ∈ (r.after ⟨env, by', .create n⟩).store.escrows := by
      show e ∈ (createEscrow env by' n r.store r.counters).store.escrows
      rw [hstore]
      exact List.mem_append_right _ (List.mem_singleton_self e)
    have hstored := (Store.stored?_eq_some_iff (Records.kept_after hk _).distinct).mpr hmem
    exact ⟨hdeadline, e.loaded, Store.escrow?_of_stored? hstored,
      congrArg (Option.map Moment.withoutOffset) hdeadline⟩
  | @updated u hop hd hr =>
    cases hop
    obtain ⟨e₀, rfl, -, hupdated⟩ := Records.updated_of_ok hk hr
    obtain rfl := Answer.escrow.inj (Except.ok.inj (hr.symm.trans hupdated.result))
    refine ⟨?_, _, hupdated.escrow?, ?_⟩
    · show u.deadline.getD e₀.loaded.deadline = _
      rw [hd]
      rfl
    · show (u.deadline.getD e₀.deadline).map Moment.withoutOffset = _
      rw [hd]
      rfl

end Deadlines

/-! ## Judgements -/

namespace Moment

/-- An agreed moment has passed at a time: its instant lies in an earlier second of UTC. -/
def Passed (d now : Moment) : Prop := floorSecond d.instant < floorSecond now.instant

theorem wall_eq (d : Moment) : d.wall = d.instant + d.offset.getD 0 := by
  unfold instant
  omega

/-- How expiries at a time go by an agreed deadline: by its instant moved by the offset. So none is early
where the clock is not behind UTC, and none late where it is not ahead; a clock that is ahead by a second
is late, and one that is behind by a second is early. -/
structure Enforced (d now : Moment) (expires : Prop) : Prop where
  iff : expires ↔ wallInRange now.instant = true ∧
    floorSecond (d.instant + d.offset.getD 0) < floorSecond now.instant
  notEarly : 0 ≤ d.offset.getD 0 → expires → d.Passed now
  notLate : d.offset.getD 0 ≤ 0 → wallInRange now.instant = true → d.Passed now → expires
  late : second ≤ d.offset.getD 0 → now.instant = d.instant + second → d.Passed now ∧ ¬expires
  early : d.offset.getD 0 ≤ -second → now.instant = d.wall + second →
    wallInRange now.instant = true → expires ∧ ¬d.Passed now

theorem Enforced.of_wall {d now : Moment} {expires : Prop}
    (h : expires ↔ wallInRange now.instant = true ∧ floorSecond d.wall < floorSecond now.instant) :
    d.Enforced now expires := by
  have hwall := d.wall_eq
  constructor
  case iff => rw [h, hwall]
  case notEarly =>
    intro hoffset hexpires
    exact Int.lt_of_le_of_lt (floorSecond_mono (by omega)) (h.mp hexpires).2
  case notLate =>
    intro hoffset hnow hpassed
    exact h.mpr ⟨hnow, Int.lt_of_le_of_lt (floorSecond_mono (by omega)) hpassed⟩
  case late =>
    intro hoffset hnow
    refine ⟨floorSecond_lt_of_add (Int.le_of_eq hnow.symm), fun hexpires => ?_⟩
    exact absurd (h.mp hexpires).2 (Int.not_lt.mpr (floorSecond_mono (by omega)))
  case early =>
    intro hoffset hnow hrange
    refine ⟨h.mpr ⟨hrange, floorSecond_lt_of_add (Int.le_of_eq hnow.symm)⟩, ?_⟩
    exact Int.not_lt.mpr (floorSecond_mono (by omega))

end Moment

/-- A deadline that an attempt has set, and that no later one has replaced, whatever surrounded them. The
answer tells it as it was given. Everybody who reads the record is told what the clock showed, as a time of
UTC: the response, and the check against the ledger, to the second. That is the instant that was agreed
exactly if the deadline came without an offset or with that of UTC. While the escrow is open, an expiry goes
by what the clock showed as well, so by the agreed instant moved by the offset. -/
theorem deadline_kept {before later : List Attempt} {a : Attempt} {x : Identifier} {d : Moment}
    {answer : Escrow} (hdated : ∀ b ∈ before ++ a :: later, b.op.Dated)
    (hset : a.Sets (Records.start.run before) x d answer)
    (hlater : ((Records.start.run before).after a).LeavesDeadline x later) :
    let r := Records.start.run (before ++ a :: later)
    answer.deadline = some d ∧
    ∃ e, r.store.escrow? x = some e ∧ e.deadline = some d.withoutOffset ∧
      ("expires_at", .text (Moment.dateText d.wall ++ "T" ++ Moment.timeText d.wall ++ "Z")) ∈
        Api.escrowMembers e ∧
      (∃ p, Check.localSide none r.store x = .ok (some p) ∧
        p.deadline = some (Moment.utc (Moment.floorSecond d.wall))) ∧
      (d.withoutOffset.instant = d.instant ↔ d.offset.getD 0 = 0) ∧
      (e.status = .pending ∨ e.status = .active → ∀ env by' reason now, env.InOrder →
        d.Enforced (now.getD env.now)
          (∃ y, (r.outcome ⟨env, by', .task x (.expire reason now)⟩).result = .ok y)) := by
  intro r
  have hrun : r = ((Records.start.run before).after a).run later := List.foldl_append ..
  have hk : Kept r.store r.counters := Records.kept_run _
  have htimely : r.store.Timely := Records.timely_run hdated
  obtain ⟨hanswer, e₁, he₁, hd₁⟩ := hset.deadline (Records.kept_run before)
  obtain ⟨e, he, hd⟩ := Records.deadline_run (Records.kept_after (Records.kept_run before) a) he₁ hlater
  rw [← hrun] at he
  rw [hd₁] at hd
  refine ⟨hanswer, e, he, hd, ?_, ⟨e.projection, ?_, ?_⟩, ?_, fun hopen env by' reason now henv => ?_⟩
  · have hstamp : stampJson e.deadline =
        .text (Moment.dateText d.wall ++ "T" ++ Moment.timeText d.wall ++ "Z") := by
      rw [hd, ← Moment.instant_withoutOffset]
      rfl
    rw [← hstamp]
    simp [Api.escrowMembers]
  · rw [Check.localSide, he]
    exact congrArg (Except.map some) (htimely.project he)
  · rw [Escrow.projection, hd]
    rfl
  · rw [Moment.instant_withoutOffset, Moment.wall_eq d]
    omega
  · refine .of_wall ?_
    rw [(Records.expires hk htimely henv by' reason now he).iff]
    refine and_congr_right fun _ => ⟨?_, fun hover => ⟨d.withoutOffset, hopen, hd, ?_⟩⟩
    · rintro ⟨d', hlapsed⟩
      obtain rfl := Option.some.inj (hd.symm.trans hlapsed.deadline)
      rw [← Moment.instant_withoutOffset]
      exact hlapsed.passed
    · rw [Moment.instant_withoutOffset]
      exact hover

/-- The sale with a deadline that is told by a clock two hours ahead of UTC. -/
def zonedSale : NewEscrow :=
  { sale with deadline := some ⟨7260 * Moment.second, some (7200 * Moment.second)⟩ }

/-- It is set up. -/
def zonedOffer : Attempt := ⟨quietSurroundings, ⟨"buyer", none⟩, .create zonedSale⟩

/-- It is funded. -/
def zonedFunding : Attempt :=
  ⟨quietSurroundings, ⟨"buyer", none⟩, .task (Identifier.escrow 1) (.activate (some "funds"))⟩

/-- Its deadline was agreed to be a minute after the beginning. A second after that it does not expire;
a second after the clock of UTC has shown that time, it does. -/
theorem deadline_kept_zonedOffer :
    let d : Moment := ⟨7260 * Moment.second, some (7200 * Moment.second)⟩
    let expires (now : Int) : Prop := ∃ y, ((Records.start.run [zonedOffer, zonedFunding]).outcome
      ⟨quietSurroundings, ⟨"passer-by", none⟩,
        .task (Identifier.escrow 1) (.expire none (some ⟨now, none⟩))⟩).result = .ok y
    d.instant = 60 * Moment.second ∧ ¬expires (61 * Moment.second) ∧ expires (7261 * Moment.second) := by
  intro d expires
  obtain ⟨answer, hset⟩ : ∃ answer, zonedOffer.Sets (Records.start.run []) (Identifier.escrow 1) d
      answer := by
    have hcreated : (createEscrow quietSurroundings ⟨"buyer", none⟩ zonedSale Records.start.store
        Records.start.counters).result.toOption.map (·.id) = some (Identifier.escrow 1) := by
      decide +kernel
    cases hr : (createEscrow quietSurroundings ⟨"buyer", none⟩ zonedSale Records.start.store
        Records.start.counters).result with
    | error f =>
      rw [hr] at hcreated
      cases hcreated
    | ok e =>
      rw [hr] at hcreated
      exact ⟨e, .created rfl rfl (Records.created_iff.mpr hr) (Option.some.inj hcreated)⟩
  have hdated : ∀ b ∈ [] ++ zonedOffer :: [zonedFunding], b.op.Dated := by
    intro b hb
    rcases List.mem_cons.mp hb with rfl | hb
    · intro m hm
      cases hm
      decide
    · rw [List.mem_singleton.mp hb]
      trivial
  have hlater : (Records.start.after zonedOffer).LeavesDeadline (Identifier.escrow 1)
      [zonedFunding] := by
    refine ⟨?_, trivial⟩
    rintro ⟨_, hu, -⟩
    cases hu
  obtain ⟨-, e, he, -, -, -, -, hjudged⟩ := deadline_kept hdated hset hlater
  have hstatus : ((Records.start.run [zonedOffer, zonedFunding]).store.escrow?
      (Identifier.escrow 1)).map (·.status) = some .active := by decide +kernel
  have he : (Records.start.run [zonedOffer, zonedFunding]).store.escrow? (Identifier.escrow 1) =
    some e := he
  rw [he] at hstatus
  have hjudged := fun now => hjudged (.inr (Option.some.inj hstatus)) quietSurroundings
    ⟨"passer-by", none⟩ none (some now) quietSurroundings_inOrder
  refine ⟨by decide, ((hjudged ⟨61 * Moment.second, none⟩).late (by decide) (by decide)).2, ?_⟩
  exact (hjudged ⟨7261 * Moment.second, none⟩).iff.mpr ⟨by decide, by decide⟩

end Custody

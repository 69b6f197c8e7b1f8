import Custody.Service
import Custody.Proofs.Identity
import Custody.Proofs.Record

/-!
# Runs of the service

A run is any sequence of happenings from a service without records: operations by anyone with any
arguments, and whatever befalls the clock, the ledger, the database, the dispatcher and the lock in
between. `Effect` says once what an operation can leave behind, and `Kept` what holds of the records
throughout.

> `perform_effect`: an operation leaves everything as it was, adds an escrow, or does one deed.
> `perform_error`: an operation that fails leaves everything as it was.
> `Reachable.kept`: the records of every run are sound, and told apart by their identifiers.
-/

namespace Custody

/-! ## Happenings -/

/-- What can happen to a service. -/
inductive Happening where
  | operation (by' : Caller) (op : Operation)
  | clock (instant : Int)
  | ledgerFails (f : Option Failure)
  | ledgerView (escrow : String) (v : RawState)
  | ledgerUnreadable (escrow : String) (f : Failure)
  | dispatcherBreaks (reason : Option String)
  | databaseBreaks (reason : Option String)
  | lease (l : Option Lease)

namespace Service

/-- The service after a happening. -/
def after (v : Service) : Happening → Service
  | .operation by' op => (v.perform by' op).2.1
  | .clock i => { v with clock := i }
  | .ledgerFails f => { v with ledger := { v.ledger with failing := f } }
  | .ledgerView e r => { v with ledger := v.ledger.record e r }
  | .ledgerUnreadable e f => { v with ledger := v.ledger.refuse e f }
  | .dispatcherBreaks r => { v with brokenDispatcher := r }
  | .databaseBreaks r => { v with database := r }
  | .lease l => { v with lease := l }

/-- The service after happenings, one after another. -/
def run (v : Service) (hs : List Happening) : Service := hs.foldl after v

end Service

/-- The services that runs lead to. -/
inductive Reachable : Service → Prop
  | start (clock : Int) (settings : Settings) (dispatcher : Dispatcher) (lease : Option Lease) :
      Reachable (Service.start clock settings dispatcher lease)
  | step {v : Service} (h : Happening) : Reachable v → Reachable (v.after h)

theorem Reachable.run {v : Service} (h : Reachable v) (hs : List Happening) :
    Reachable (v.run hs) := by
  induction hs generalizing v with
  | nil => exact h
  | cons a hs ih => exact ih (h.step a)

/-! ## Transactions -/

section Transactions

variable {env : Surroundings} {by' : Caller} {escrow : Identifier}
  {plan : Escrow → List Condition → Plan} {s : Store} {c : Counters}

/-! ### How it ends -/

theorem carryOut_of_none (he : s.escrow? escrow = none) :
    carryOut env escrow plan s c = .refused s c [] (.escrow (.escrowNotFound escrow.text)) := by
  simp only [carryOut, he]

theorem carryOut_of_error {e : Escrow} {k : Conclusion} {f : Failure}
    (he : s.escrow? escrow = some e) (hk : (plan e (s.conditionsOf escrow)).conclude env.ask = k)
    (hv : k.verdict = .error f) :
    carryOut env escrow plan s c =
      ⟨.error f, s, { c with events := c.events + k.writes.drafts.length }, k.writes.log, [],
        k.asked, none⟩ := by
  simp only [carryOut, he, hk, hv]

theorem carryOut_of_rejected {e : Escrow} {k : Conclusion} {f : Constraint}
    (he : s.escrow? escrow = some e) (hk : (plan e (s.conditionsOf escrow)).conclude env.ask = k)
    (hv : k.verdict = .ok ()) (ha : s.apply env.now escrow (c.events + 1) k.writes = .error f) :
    carryOut env escrow plan s c =
      ⟨.error (.store f), s, { c with events := c.events + k.writes.drafts.length }, k.writes.log,
        [], k.asked, none⟩ := by
  simp only [carryOut, he, hk, hv, ha]

theorem carryOut_of_ok {e : Escrow} {k : Conclusion} {s' : Store}
    (he : s.escrow? escrow = some e) (hk : (plan e (s.conditionsOf escrow)).conclude env.ask = k)
    (hv : k.verdict = .ok ()) (ha : s.apply env.now escrow (c.events + 1) k.writes = .ok s') :
    carryOut env escrow plan s c =
      ⟨.ok (k.writes.view env.now e), s', { c with events := c.events + k.writes.drafts.length },
        k.writes.log, k.writes.closing, k.asked,
        k.writes.announcement.map fun (a : Announcement) => a.about (k.writes.view env.now e)⟩ := by
  simp only [carryOut, he, hk, hv, ha]

/-- A transaction asks the ledger what its plan asks. -/
theorem asked_carryOut {e : Escrow} (he : s.escrow? escrow = some e) :
    (carryOut env escrow plan s c).asked =
      ((plan e (s.conditionsOf escrow)).conclude env.ask).asked := by
  unfold carryOut
  simp only [he]
  split
  next => rfl
  next => split <;> rfl

/-- A transaction that goes through has carried out its plan and written what it says. -/
theorem carryOut_eq_ok {e' : Escrow} (h : (carryOut env escrow plan s c).result = .ok e') :
    ∃ e, s.escrow? escrow = some e ∧
      let k := (plan e (s.conditionsOf escrow)).conclude env.ask
      k.verdict = .ok () ∧
        (carryOut env escrow plan s c).store = (s.changed env.now escrow k.writes).enterAll env.now
          escrow (c.events + 1) k.writes.drafts := by
  cases he : s.escrow? escrow with
  | none =>
    rw [carryOut_of_none he] at h
    cases h
  | some e =>
    refine ⟨e, rfl, ?_⟩
    generalize hk : (plan e (s.conditionsOf escrow)).conclude env.ask = k
    cases hv : k.verdict with
    | error f =>
      rw [carryOut_of_error he hk hv] at h
      cases h
    | ok _ =>
      cases ha : s.apply env.now escrow (c.events + 1) k.writes with
      | error f =>
        rw [carryOut_of_rejected he hk hv ha] at h
        cases h
      | ok s' =>
        rw [carryOut_of_ok he hk hv ha]
        refine ⟨hv, ?_⟩
        rw [Store.apply_eq] at ha
        split at ha
        next => cases ha
        next =>
          cases ha
          rfl

/-! ### What it leaves -/

/-- A piece of work that has come to nothing. The ledger may have been asked, in vain. -/
structure Outcome.Failed {α : Type} (o : Outcome α) (s : Store) (c : Counters)
    (ask : SettleRequest → LedgerAnswer) : Prop where
  error : ∃ f, o.result = .error f
  store : o.store = s
  announced : o.announced = none
  escrows : c.escrows ≤ o.counters.escrows
  conditions : c.conditions ≤ o.counters.conditions
  asked : ∀ r, o.asked = some r → ∃ g, (ask r).result = .error g

/-- A transaction that has done a deed on an escrow. -/
structure Outcome.Done (o : Outcome Escrow) (env : Surroundings) (by' : Caller) (e : Escrow)
    (s : Store) (c : Counters) (w : Writes) (paid : Option (SettleRequest × String)) : Prop where
  stored : s.stored? e.id = some e
  deed : Deed by' e.loaded (s.conditionsOf e.id) w paid
  result : o.result = .ok (w.view env.now e.loaded)
  store : o.store = (s.changed env.now e.id w).enterAll env.now e.id (c.events + 1) w.drafts
  counters : o.counters = { c with events := c.events + w.drafts.length }
  asked : o.asked = paid.map (·.1)
  answered : ∀ q ∈ paid, (env.ask q.1).result = .ok q.2
  announced : o.announced =
    w.announcement.map fun (a : Announcement) => a.about (w.view env.now e.loaded)

theorem Outcome.failed_refused {α : Type} (s : Store) (c : Counters) (log : List LogEntry)
    (f : Failure) (ask : SettleRequest → LedgerAnswer) :
    (Outcome.refused s c log f : Outcome α).Failed s c ask :=
  ⟨⟨f, rfl⟩, rfl, rfl, Nat.le_refl _, Nat.le_refl _, fun r hr => by cases hr⟩

/-- A transaction on sound records comes to nothing, or does a deed. -/
theorem carryOut_cases (hs : ∀ e ∈ s.escrows, e.Sound)
    (hplan : ∀ e, s.stored? escrow = some e → e.Sound →
      ((plan e.loaded (s.conditionsOf escrow)).conclude env.ask).verdict = .ok () →
      ((plan e.loaded (s.conditionsOf escrow)).conclude env.ask).IsDeed by' e.loaded
        (s.conditionsOf escrow) env.ask) :
    (carryOut env escrow plan s c).Failed s c env.ask ∨
      ∃ e w paid, e.id = escrow ∧ (carryOut env escrow plan s c).Done env by' e s c w paid := by
  cases he : s.stored? escrow with
  | none =>
    left
    rw [carryOut_of_none (Store.escrow?_of_not_stored? he)]
    exact Outcome.failed_refused ..
  | some e =>
    have hid : e.id = escrow := by simpa using List.find?_some he
    subst hid
    have hsound : e.Sound := hs e (List.mem_of_find?_eq_some he)
    have hread : s.escrow? e.id = some e.loaded := Store.escrow?_of_stored? he
    generalize hk : (plan e.loaded (s.conditionsOf e.id)).conclude env.ask = k
    cases hv : k.verdict with
    | error f =>
      left
      rw [carryOut_of_error hread hk hv]
      refine ⟨⟨f, rfl⟩, rfl, rfl, Nat.le_refl _, Nat.le_refl _, fun r hr => ?_⟩
      subst hk
      exact Plan.conclude_error_asked hv hr
    | ok _ =>
      right
      have hdeed := hplan e he hsound (by rw [hk]; exact hv)
      rw [hk] at hdeed
      obtain ⟨paid, hd, hasked, hans⟩ := hdeed
      -- What a deed writes to a sound record, the store takes.
      have ha := hd.apply_eq_ok hsound he env.now (c.events + 1)
      rw [carryOut_of_ok hread hk hv ha]
      exact ⟨e, k.writes, paid, rfl, he, hd, rfl, rfl, rfl, hasked, hans, rfl⟩

/-- So does a transaction under a lock. -/
theorem underLock_cases (env : Surroundings) (by' : Caller) (escrow : Identifier)
    (plan : Escrow → List Condition → Plan) (c : Counters) (hs : ∀ e ∈ s.escrows, e.Sound)
    (hplan : ∀ e, s.stored? escrow = some e → e.Sound →
      ((plan e.loaded (s.conditionsOf escrow)).conclude env.ask).verdict = .ok () →
      ((plan e.loaded (s.conditionsOf escrow)).conclude env.ask).IsDeed by' e.loaded
        (s.conditionsOf escrow) env.ask) :
    (underLock env escrow (carryOut env escrow plan) s c).Failed s c env.ask ∨
      ∃ e w paid, e.id = escrow ∧
        (underLock env escrow (carryOut env escrow plan) s c).Done env by' e s c w paid := by
  unfold underLock
  split
  next => exact .inl (Outcome.failed_refused ..)
  next =>
    cases env.database with
    | some f =>
      exact .inl ⟨⟨_, rfl⟩, rfl, rfl, Nat.le_refl _, Nat.le_refl _, fun r hr => by cases hr⟩
    | none =>
      rcases carryOut_cases hs hplan with h | ⟨e, w, paid, hid, h⟩
      · exact .inl ⟨h.error, h.store, h.announced, h.escrows, h.conditions, h.asked⟩
      · exact .inr ⟨e, w, paid, hid, h.stored, h.deed, h.result, h.store, h.counters, h.asked,
          h.answered, h.announced⟩

end Transactions

/-! ## Operations -/

/-- Creating an escrow never asks the ledger. -/
theorem createEscrow_asked (env : Surroundings) (by' : Caller) (n : NewEscrow) (s : Store)
    (c : Counters) : (createEscrow env by' n s c).asked = none := by
  unfold createEscrow
  split
  next => rfl
  next =>
    simp only
    split
    next => rfl
    next => split <;> rfl

/-- What an operation can leave behind: nothing but numbers that are not used again, a new escrow,
or one deed. The ledger has paid for the deed and for nothing else. -/
inductive Effect (v : Service) (by' : Caller) : Service → Prop
  | nothing {c : Counters} (he : v.counters.escrows ≤ c.escrows)
      (hc : v.counters.conditions ≤ c.conditions) : Effect v by' { v with counters := c }
  | creation {n : NewEscrow} {ps : List Party} {t : EscrowType} {asset : String} {e : Escrow}
      {cs : List Condition} (hn : n.define by'.user = .ok (ps, t))
      (hf : (n.row by'.user asset t).fault? = none)
      (he : e = n.record (Identifier.escrow (v.counters.escrows + 1)) by'.user asset t ps v.now)
      (hc : cs = numberConditions e.id (v.counters.conditions + 1) n.conditions) :
      Effect v by' { v with
        store := (v.store.add e cs).enter v.now e.id (v.counters.events + 1)
          (creationDraft e cs.length by')
        counters := ⟨v.counters.escrows + 1, v.counters.conditions + cs.length,
          v.counters.events + 1⟩ }
  | deed {e : Escrow} {w : Writes} {paid : Option (SettleRequest × String)}
      (he : v.store.stored? e.id = some e)
      (hd : Deed by' e.loaded (v.store.conditionsOf e.id) w paid)
      (ha : ∀ q ∈ paid, v.ledger.answer = .ok q.2) :
      Effect v by' { v with
        store := (v.store.changed v.now e.id w).enterAll v.now e.id (v.counters.events + 1) w.drafts
        counters := { v.counters with events := v.counters.events + w.drafts.length }
        ledger := Service.ledgerAfter v.ledger (paid.map (·.1)) }

/-- The escrow that an operation is about. A new one is not there yet. -/
def Operation.target? (s : Store) : Operation → Option Identifier
  | .create _ => none
  | .task x _ => some x
  | .confirm k => (s.condition? k).map (·.escrow)

/-- What an operation can come to, whatever surrounds it: nothing, for it fails; the answer that a
condition was met before; a new escrow, which is announced; or a deed on the escrow that it is
about. -/
inductive Operation.Comes (env : Surroundings) (by' : Caller) (op : Operation) (seen s : Store)
    (c : Counters) : Outcome Answer → Prop
  | failed {o : Outcome Answer} (h : o.Failed s c env.ask) : Comes env by' op seen s c o
  | idle (log : List LogEntry) (a : Answer) : Comes env by' op seen s c (.settled s c log a)
  | created {n : NewEscrow} {ps : List Party} {t : EscrowType} {asset : String} {e : Escrow}
      {cs : List Condition} {log closing : List LogEntry} (hop : op = .create n)
      (hn : n.define by'.user = .ok (ps, t)) (hf : (n.row by'.user asset t).fault? = none)
      (he : e = n.record (Identifier.escrow (c.escrows + 1)) by'.user asset t ps env.now)
      (hc : cs = numberConditions e.id (c.conditions + 1) n.conditions) :
      Comes env by' op seen s c
        { result := .ok (.escrow e)
          store := (s.add e cs).enter env.now e.id (c.events + 1) (creationDraft e cs.length by')
          counters := ⟨c.escrows + 1, c.conditions + cs.length, c.events + 1⟩
          log := log, closing := closing, asked := none
          announced := some ((⟨.created, []⟩ : Announcement).about e) }
  | done {o : Outcome Escrow} {e : Escrow} {w : Writes} {paid : Option (SettleRequest × String)}
      (hx : op.target? seen = some e.id) (h : o.Done env by' e s c w paid)
      (answer : Escrow → Answer) : Comes env by' op seen s c (o.mapResult answer)

theorem Outcome.Failed.mapResult {α β : Type} {o : Outcome α} {s : Store} {c : Counters}
    {ask : SettleRequest → LedgerAnswer} (h : o.Failed s c ask) (f : α → β) :
    (o.mapResult f).Failed s c ask := by
  obtain ⟨g, hg⟩ := h.error
  exact ⟨⟨g, by simp [Outcome.mapResult, hg, Except.map]⟩, h.store, h.announced, h.escrows,
    h.conditions, h.asked⟩

/-- On sound records every operation comes to one of these. -/
theorem Operation.run_comes (env : Surroundings) {s : Store}
    (hs : ∀ e ∈ s.escrows, e.Sound) (by' : Caller) (op : Operation) (seen : Store) (c : Counters) :
    op.Comes env by' seen s c (op.run env by' seen s c) := by
  cases op with
  | create n =>
    simp only [run, createEscrow]
    cases hn : n.define by'.user with
    | error f => exact .failed ((Outcome.failed_refused ..).mapResult _)
    | ok d =>
      simp only
      cases env.database with
      | some f =>
        exact .failed ⟨⟨_, rfl⟩, rfl, rfl, Nat.le_succ _, Nat.le_add_right _ _,
          fun r hr => by cases hr⟩
      | none =>
        simp only
        cases hf : (n.row by'.user (n.assetOr env.defaultAsset) d.2).fault? with
        | some f =>
          exact .failed ⟨⟨_, rfl⟩, rfl, rfl, Nat.le_succ _, Nat.le_add_right _ _,
            fun r hr => by cases hr⟩
        | none => exact .created rfl hn hf rfl rfl
  | task x t =>
    simp only [run]
    rcases underLock_cases env by' x (fun r cs => t.plan env.now by' r cs) c hs
      (fun e _ _ h => Task.isDeed h) with hc | ⟨e, w, paid, rfl, hc⟩
    · exact .failed (hc.mapResult _)
    · exact .done rfl hc _
  | confirm k =>
    simp only [run, confirmCondition]
    cases env.database with
    | some f => exact .failed (Outcome.failed_refused ..)
    | none =>
      simp only
      cases hq : seen.condition? k with
      | none => exact .failed (Outcome.failed_refused ..)
      | some q =>
        simp only
        by_cases hm : q.met = true
        · -- What was met before is answered without any work.
          simp only [if_pos hm]
          exact .idle _ _
        · simp only [if_neg hm]
          rcases underLock_cases env by' q.escrow (planConfirmation k by') c hs
            (fun e _ he h => isDeed_planConfirmation (fun hr => he.released_iff.mp hr) h)
            with hc | ⟨e, w, paid, hx, hc⟩
          · exact .failed (hc.mapResult _)
          · exact .done (by rw [target?, hq, Option.map_some, hx]) hc _

/-- An operation that has asked the ledger goes through exactly when the ledger has paid. -/
theorem Operation.Comes.ok_iff {env : Surroundings} {by' : Caller} {op : Operation}
    {seen s : Store} {c : Counters} {o : Outcome Answer} (h : op.Comes env by' seen s c o)
    {q : SettleRequest} (hq : o.asked = some q) :
    (∃ a, o.result = .ok a) ↔ ∃ t, (env.ask q).result = .ok t := by
  cases h with
  | failed hf =>
    obtain ⟨f, hf'⟩ := hf.error
    obtain ⟨g, hg⟩ := hf.asked q hq
    rw [hf', hg]
    exact ⟨(fun ⟨_, h⟩ => nomatch h), (fun ⟨_, h⟩ => nomatch h)⟩
  | idle => cases hq
  | created => cases hq
  | @done o e w paid _ hd answer =>
    have hq : paid.map (·.1) = some q := hd.asked.symm.trans hq
    obtain ⟨⟨q', t⟩, rfl, rfl⟩ := Option.map_eq_some_iff.mp hq
    refine ⟨fun _ => ⟨t, hd.answered _ rfl⟩, fun _ => ⟨answer (w.view env.now e.loaded), ?_⟩⟩
    rw [Outcome.mapResult, hd.result]
    rfl

namespace Service

theorem ask_result (v : Service) (r : SettleRequest) : (v.ask r).result = v.ledger.answer := by
  unfold ask
  cases v.ledger.answer <;> rfl

/-- A ledger that was asked in vain is as it was. -/
theorem ledgerAfter_of_failed {v : Service} {asked : Option SettleRequest}
    (h : ∀ r, asked = some r → ∃ g, (v.ask r).result = .error g) :
    ledgerAfter v.ledger asked = v.ledger := by
  cases asked with
  | none => rfl
  | some r =>
    obtain ⟨g, hg⟩ := h r rfl
    rw [ask_result] at hg
    simp only [ledgerAfter, SimulatedLedger.settle, hg]

end Service

/-- What an operation comes to on sound records, as an outcome and as an effect. -/
theorem Operation.run_cases {v : Service} (hs : ∀ e ∈ v.store.escrows, e.Sound) (by' : Caller)
    (op : Operation) :
    (op.run v.surroundings by' v.store v.store v.counters).Failed v.store v.counters v.ask ∨
      (∃ a, (op.run v.surroundings by' v.store v.store v.counters).result = .ok a) ∧
        Effect v by' (v.perform by' op).2.1 := by
  have hcomes := op.run_comes v.surroundings hs by' v.store v.counters
  simp only [Service.perform, Service.performSeeing]
  generalize op.run v.surroundings by' v.store v.store v.counters = o at hcomes ⊢
  cases hcomes with
  | failed h => exact .inl h
  | idle log a => exact .inr ⟨⟨a, rfl⟩, .nothing (Nat.le_refl _) (Nat.le_refl _)⟩
  | created _ hn hf he hc => exact .inr ⟨⟨_, rfl⟩, .creation hn hf he hc⟩
  | @done o e w paid _ h answer =>
    refine .inr ⟨⟨answer (w.view v.now e.loaded), ?_⟩, ?_⟩
    · rw [Outcome.mapResult, h.result]
      rfl
    · simp only [Outcome.mapResult, h.store, h.counters, h.asked]
      refine .deed h.stored h.deed fun q hq => ?_
      rw [← Service.ask_result v q.1]
      exact h.answered q hq

namespace Service

/-- An operation leaves everything as it was, adds an escrow, or does one deed. -/
theorem perform_effect {v : Service} (hs : ∀ e ∈ v.store.escrows, e.Sound) (by' : Caller)
    (op : Operation) : Effect v by' (v.perform by' op).2.1 := by
  rcases Operation.run_cases hs by' op with h | ⟨-, h⟩
  · have hv : (v.perform by' op).2.1 = { v with
        counters := (op.run v.surroundings by' v.store v.store v.counters).counters } := by
      simp only [perform, performSeeing, h.store, ledgerAfter_of_failed h.asked]
    rw [hv]
    exact .nothing h.escrows h.conditions
  · exact h

/-- An operation that fails leaves everything as it was, and nothing of it is to be seen. -/
theorem perform_error {v : Service} (hs : ∀ e ∈ v.store.escrows, e.Sound) {by' : Caller}
    {op : Operation} {f : Failure} (h : (v.perform by' op).1 = .error f) :
    (v.perform by' op).2.1.store = v.store ∧ (v.perform by' op).2.1.ledger = v.ledger ∧
      (v.perform by' op).2.2.sent = [] ∧ (v.perform by' op).2.2.queued = [] ∧
      (v.perform by' op).2.2.settled = [] := by
  rcases Operation.run_cases hs by' op with ho | ⟨⟨a, ha⟩, -⟩
  · have hl := ledgerAfter_of_failed ho.asked
    simp only [perform, performSeeing, ho.store, hl, ho.announced]
    exact ⟨trivial, trivial, rfl, rfl, List.drop_length⟩
  · simp only [perform, performSeeing] at h
    rw [ha] at h
    cases h

end Service

/-! ## Records of a run -/

/-- What holds of the records throughout a run: they are sound, identifiers that were given out tell
them apart, and every condition is one of an escrow that is there. -/
structure Kept (s : Store) (c : Counters) : Prop where
  sound : ∀ e ∈ s.escrows, e.Sound
  numbered : ∀ e ∈ s.escrows, ∃ k, k ≤ c.escrows ∧ e.id = Identifier.escrow k
  distinct : (s.escrows.map (·.id)).Nodup
  conditionsNumbered : ∀ d ∈ s.conditions, ∃ k, k ≤ c.conditions ∧ d.id = Identifier.condition k
  conditionsDistinct : (s.conditions.map (·.id)).Nodup
  owned : ∀ d ∈ s.conditions, ∃ e ∈ s.escrows, e.id = d.escrow

theorem mem_numberConditions {escrow : Identifier} {k : Nat} {l : List ConditionInput}
    {d : Condition} (h : d ∈ numberConditions escrow k l) :
    d.escrow = escrow ∧ d.met = false ∧
      ∃ j, k ≤ j ∧ j < k + l.length ∧ d.id = Identifier.condition j := by
  induction l generalizing k with
  | nil => cases h
  | cons c rest ih =>
    rcases List.mem_cons.mp h with rfl | h
    · exact ⟨rfl, rfl, k, Nat.le_refl k, by simp, rfl⟩
    · obtain ⟨he, hm, j, hkj, hj, hd⟩ := ih h
      exact ⟨he, hm, j, by omega, by rw [List.length_cons]; omega, hd⟩

theorem length_numberConditions (escrow : Identifier) (k : Nat) (l : List ConditionInput) :
    (numberConditions escrow k l).length = l.length := by
  induction l generalizing k with
  | nil => rfl
  | cons c rest ih => rw [numberConditions, List.length_cons, ih, List.length_cons]

theorem nodup_numberConditions (escrow : Identifier) (k : Nat) (l : List ConditionInput) :
    ((numberConditions escrow k l).map (·.id)).Nodup := by
  induction l generalizing k with
  | nil => exact List.nodup_nil
  | cons c rest ih =>
    rw [numberConditions, List.map_cons, List.nodup_cons]
    refine ⟨fun hmem => ?_, ih (k + 1)⟩
    obtain ⟨d, hd, hid⟩ := List.mem_map.mp hmem
    obtain ⟨-, -, j, hj, -, hdj⟩ := mem_numberConditions hd
    have : j = k := Identifier.numbered_injective (hdj.symm.trans hid)
    omega

/-- The record of an escrow is the only one with its identifier. -/
theorem Store.stored?_eq_some_iff {s : Store} (h : (s.escrows.map (·.id)).Nodup) {e : Escrow} :
    s.stored? e.id = some e ↔ e ∈ s.escrows :=
  find?_eq_some_iff_mem h

/-- The conditions of an escrow have identifiers of their own. -/
theorem Store.nodup_conditionsOf {s : Store} (h : (s.conditions.map (·.id)).Nodup)
    (x : Identifier) : ((s.conditionsOf x).map (·.id)).Nodup :=
  h.sublist (List.filter_sublist.map _)

/-- A condition is found among those of its escrow. -/
theorem Store.find?_conditionsOf {s : Store} (h : (s.conditions.map (·.id)).Nodup) {x : Identifier}
    {c : Condition} (hc : c ∈ s.conditionsOf x) :
    (s.conditionsOf x).find? (fun d => d.id = c.id) = some c :=
  (find?_eq_some_iff_mem (nodup_conditionsOf h x)).mpr hc

namespace Kept

variable {v u : Service} {by' : Caller}

theorem nothing {s : Store} {c d : Counters} (h : Kept s c) (he : c.escrows ≤ d.escrows)
    (hc : c.conditions ≤ d.conditions) : Kept s d := by
  refine ⟨h.sound, fun e hm => ?_, h.distinct, fun k hm => ?_, h.conditionsDistinct, h.owned⟩
  · obtain ⟨n, hn, hid⟩ := h.numbered e hm
    exact ⟨n, Nat.le_trans hn he, hid⟩
  · obtain ⟨n, hn, hid⟩ := h.conditionsNumbered k hm
    exact ⟨n, Nat.le_trans hn hc, hid⟩

/-- Nothing has the identifier that comes next. -/
theorem fresh {s : Store} {c : Counters} (h : Kept s c) :
    Identifier.escrow (c.escrows + 1) ∉ s.escrows.map (·.id) := by
  intro hmem
  obtain ⟨e, he, hid⟩ := List.mem_map.mp hmem
  obtain ⟨k, hk, hek⟩ := h.numbered e he
  have : k = c.escrows + 1 := Identifier.numbered_injective (hek.symm.trans hid)
  omega

theorem creation {s : Store} {c : Counters} (h : Kept s c) {e : Escrow} (he : e.Sound)
    (hid : e.id = Identifier.escrow (c.escrows + 1)) (l : List ConditionInput) {k : Nat} :
    Kept (s.add e (numberConditions e.id (c.conditions + 1) l))
      ⟨c.escrows + 1, c.conditions + l.length, k⟩ := by
  -- The counters are ahead of all numbers that have been given, so the new ones are fresh.
  constructor
  case sound =>
    intro d hd
    rcases List.mem_append.mp hd with hd | hd
    · exact h.sound d hd
    · rw [List.mem_singleton.mp hd]
      exact he
  case numbered =>
    intro d hd
    rcases List.mem_append.mp hd with hd | hd
    · obtain ⟨n, hn, hdn⟩ := h.numbered d hd
      exact ⟨n, Nat.le_succ_of_le hn, hdn⟩
    · rw [List.mem_singleton.mp hd]
      exact ⟨_, Nat.le_refl _, hid⟩
  case distinct =>
    show ((s.escrows ++ [e]).map (·.id)).Nodup
    rw [List.map_append, List.nodup_append]
    refine ⟨h.distinct, by simp, fun i hi j hj hij => ?_⟩
    rw [List.map_singleton, List.mem_singleton] at hj
    rw [hij, hj, hid] at hi
    exact h.fresh hi
  case conditionsNumbered =>
    intro d hd
    rcases List.mem_append.mp hd with hd | hd
    · obtain ⟨n, hn, hdn⟩ := h.conditionsNumbered d hd
      exact ⟨n, Nat.le_add_right_of_le hn, hdn⟩
    · obtain ⟨-, -, j, -, hj, hdj⟩ := mem_numberConditions hd
      exact ⟨j, by show j ≤ c.conditions + l.length; omega, hdj⟩
  case conditionsDistinct =>
    show ((s.conditions ++ numberConditions e.id (c.conditions + 1) l).map (·.id)).Nodup
    rw [List.map_append, List.nodup_append]
    refine ⟨h.conditionsDistinct, nodup_numberConditions .., fun i hi j hj hij => ?_⟩
    obtain ⟨d, hd, rfl⟩ := List.mem_map.mp hi
    obtain ⟨d', hd', rfl⟩ := List.mem_map.mp hj
    obtain ⟨n, hn, hdn⟩ := h.conditionsNumbered d hd
    obtain ⟨-, -, m, hm, -, hdm⟩ := mem_numberConditions hd'
    have : n = m := Identifier.numbered_injective (hdn.symm.trans (hij.trans hdm))
    omega
  case owned =>
    intro d hd
    rcases List.mem_append.mp hd with hd | hd
    · obtain ⟨a, ha, had⟩ := h.owned d hd
      exact ⟨a, List.mem_append_left _ ha, had⟩
    · exact ⟨e, List.mem_append_right _ (List.mem_singleton.mpr rfl),
        (mem_numberConditions hd).1.symm⟩

/-- Writes keep identifiers, and with sound records they keep everything. -/
theorem changed {s : Store} {c : Counters} (h : Kept s c) (now : Moment) (escrow : Identifier)
    (w : Writes) (hw : ∀ e ∈ s.escrows, (w.onRecord now escrow e).Sound) :
    Kept (s.changed now escrow w) c := by
  constructor
  case sound =>
    intro e he
    obtain ⟨d, hd, rfl⟩ := List.mem_map.mp he
    exact hw d hd
  case numbered =>
    intro e he
    obtain ⟨d, hd, rfl⟩ := List.mem_map.mp he
    simpa using h.numbered d hd
  case distinct => simpa [Store.changed, Function.comp_def] using h.distinct
  case conditionsNumbered =>
    intro e he
    obtain ⟨d, hd, rfl⟩ := List.mem_map.mp he
    simpa using h.conditionsNumbered d hd
  case conditionsDistinct => simpa [Store.changed, Function.comp_def] using h.conditionsDistinct
  case owned =>
    intro c hc
    obtain ⟨d, hd, rfl⟩ := List.mem_map.mp hc
    obtain ⟨e, he, hed⟩ := h.owned d hd
    exact ⟨_, List.mem_map_of_mem he, by rw [Writes.onRecord_id, Writes.onCondition_escrow, hed]⟩

/-- After writes on a record there are that record, changed, and the others as they were. -/
theorem mem_changed {s : Store} {c : Counters} (h : Kept s c) {e d : Escrow} {w : Writes}
    {now : Moment} (he : s.stored? e.id = some e) (hd : d ∈ (s.changed now e.id w).escrows) :
    d = w.view now e ∨ (d ∈ s.escrows ∧ d.id ≠ e.id) := by
  obtain ⟨a, ha, rfl⟩ := List.mem_map.mp hd
  by_cases hid : a.id = e.id
  · obtain rfl : a = e :=
      List.inj_on_of_nodup_map h.distinct ha (List.mem_of_find?_eq_some he) hid
    exact .inl (by rw [Writes.onRecord, if_pos rfl])
  · rw [Writes.onRecord, if_neg hid]
    exact .inr ⟨ha, hid⟩

/-- Events do not matter. -/
theorem congr {s t : Store} {c : Counters} (h : Kept s c) (he : t.escrows = s.escrows)
    (hc : t.conditions = s.conditions) : Kept t c :=
  ⟨by rw [he]; exact h.sound, by rw [he]; exact h.numbered, by rw [he]; exact h.distinct,
    by rw [hc]; exact h.conditionsNumbered, by rw [hc]; exact h.conditionsDistinct,
    by rw [he, hc]; exact h.owned⟩

/-- A new escrow on terms that the store takes keeps what holds of the records. -/
theorem created {s : Store} {c : Counters} (h : Kept s c) {n : NewEscrow} {ps : List Party}
    {t : EscrowType} {asset : String} {e : Escrow} {cs : List Condition} {now : Moment}
    (hn : n.define by'.user = .ok (ps, t)) (hf : (n.row by'.user asset t).fault? = none)
    (he : e = n.record (Identifier.escrow (c.escrows + 1)) by'.user asset t ps now)
    (hc : cs = numberConditions e.id (c.conditions + 1) n.conditions) (i j : Nat)
    (d : EventDraft) :
    Kept ((s.add e cs).enter now e.id i d) ⟨c.escrows + 1, c.conditions + cs.length, j⟩ := by
  subst he
  subst hc
  rw [length_numberConditions]
  exact (h.creation (NewEscrow.record_sound hn hf _ _) rfl _).congr rfl rfl

/-- So does a deed: only its record changes, and it stays sound. -/
theorem done {s : Store} {c : Counters} (h : Kept s c) {e : Escrow} {w : Writes}
    {paid : Option (SettleRequest × String)} (he : s.stored? e.id = some e)
    (hd : Deed by' e.loaded (s.conditionsOf e.id) w paid) (now : Moment) (i j : Nat) :
    Kept ((s.changed now e.id w).enterAll now e.id i w.drafts) { c with events := j } := by
  have hchanged : Kept (s.changed now e.id w) c := by
    refine h.changed now e.id w fun d hm => ?_
    unfold Writes.onRecord
    split
    next hid =>
      have hmem := (Store.stored?_eq_some_iff h.distinct).mpr hm
      rw [hid, he] at hmem
      cases hmem
      exact hd.view_sound (h.sound _ hm) _
    next => exact h.sound d hm
  exact (hchanged.congr (Store.escrows_enterAll ..) (Store.conditions_enterAll ..)).nothing
    (Nat.le_refl _) (Nat.le_refl _)

/-- An operation keeps what holds of the records. -/
theorem effect (h : Kept v.store v.counters) (hu : Effect v by' u) : Kept u.store u.counters := by
  cases hu with
  | nothing he hc => exact h.nothing he hc
  | creation hn hf he hc => exact h.created hn hf he hc _ _ _
  | deed he hd ha => exact h.done he hd _ _ _

/-- Whatever surrounds it. -/
theorem comes {env : Surroundings} {op : Operation} {seen s : Store} {c : Counters}
    {o : Outcome Answer} (h : Kept s c) (ho : op.Comes env by' seen s c o) :
    Kept o.store o.counters := by
  cases ho with
  | failed hf =>
    rw [hf.store]
    exact h.nothing hf.escrows hf.conditions
  | idle => exact h
  | created _ hn hf he hc => exact h.created hn hf he hc _ _ _
  | @done o e w paid _ ho answer =>
    show Kept o.store o.counters
    rw [ho.store, ho.counters]
    exact h.done ho.stored ho.deed _ _ _

end Kept

/-- There is nothing to keep where there are no records. -/
theorem Kept.empty (c : Counters) : Kept Store.empty c :=
  ⟨(fun _ he => nomatch he), (fun _ he => nomatch he), List.nodup_nil, (fun _ hd => nomatch hd),
    List.nodup_nil, (fun _ hd => nomatch hd)⟩

/-- The records of every run are sound, and told apart by their identifiers. -/
theorem Reachable.kept {v : Service} (h : Reachable v) : Kept v.store v.counters := by
  induction h with
  | start clock settings dispatcher lease => exact Kept.empty _
  | @step v a hv ih =>
    cases a with
    | operation by' op => exact ih.effect (Service.perform_effect ih.sound by' op)
    | clock i => exact ih
    | ledgerFails f => exact ih
    | ledgerView e r => exact ih
    | ledgerUnreadable e f => exact ih
    | dispatcherBreaks r => exact ih
    | databaseBreaks r => exact ih
    | lease l => exact ih

/-- What holds of a service without records, and is broken neither by an effect nor by anything that
leaves records and settlements alone, holds of every run. -/
theorem Reachable.invariant {I : Service → Prop}
    (start : ∀ clock settings dispatcher lease, I (.start clock settings dispatcher lease))
    (effect : ∀ {v u : Service} {by' : Caller}, Reachable v → I v → Effect v by' u → I u)
    (other : ∀ {v u : Service}, u.store = v.store → u.counters = v.counters →
      u.ledger.settlements = v.ledger.settlements → I v → I u)
    {v : Service} (h : Reachable v) : I v := by
  induction h with
  | start clock settings dispatcher lease => exact start clock settings dispatcher lease
  | @step v a hv ih =>
    cases a with
    | operation by' op => exact effect hv ih (Service.perform_effect hv.kept.sound by' op)
    | _ => exact @other v _ rfl rfl rfl ih

/-! ## A sale -/

/-- The terms of a sale on two conditions, with nobody to settle a dispute. -/
def sale : NewEscrow :=
  { title := some "Bicycle", description := none, amount := .finite false 100 0, asset := none
    type := .ok .standard, parties := [⟨"seller", .seller⟩]
    conditions := [⟨"handed over", .manual, none⟩, ⟨"as described", .manual, none⟩]
    deadline := none }

/-- A service with the sale, funded. -/
def soldService : Service :=
  (Service.start 0 Settings.usual .recorder none).run
    [.operation ⟨"buyer", none⟩ (.create sale),
      .operation ⟨"buyer", none⟩ (.task (Identifier.escrow 1) (.activate (some "funds")))]

theorem soldService_reachable : Reachable soldService :=
  (Reachable.start 0 Settings.usual .recorder none).run _

end Custody

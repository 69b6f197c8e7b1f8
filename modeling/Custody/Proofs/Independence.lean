import Custody.Proofs.Look

/-!
# Escrows are independent

An operation on an escrow reads what the store has about it and hears one answer of the ledger, and
it writes there and nowhere else. So it does the same among any other escrows, and leaves those
alone; and of two operations on different escrows it does not matter which comes first, up to the
fresh values that each of them takes.

    v ── op on x ──→ · ── op' on y ──→ ·
    │                                  ‖  on every escrow, up to fresh values
    └─── op' on y ──→ · ── op on x ──→ ·

> `Operation.run_alike`: what an operation comes to depends on its escrow alone.
> `Service.perform_agree`: so services that agree on the escrow agree on it afterwards.
> `Service.perform_spares`: on all others a service agrees with itself afterwards.
> `Service.performAt_commute`: operations on different escrows commute.
> `escrows_independent`: all of it together.
-/

namespace Custody

/-! ## Transactions -/

/-- Surroundings that look alike from an escrow. -/
structure Surroundings.Alike (k : Look) (env env' : Surroundings) (x : Identifier) : Prop where
  now : k.stamp env.now = k.stamp env'.now
  database : env.database = env'.database
  lease : env.lease = env'.lease
  ask : ∀ r, r.escrow = x → k.Hears env.ask env'.ask r

/-- Outcomes that look alike from an escrow. The ledger is asked for that one only, and the outcomes
use up as many numbers of events beyond `c` and `d`, and no others. -/
structure Outcome.Alike {α : Type} (k : Look) (look : α → α) (x : Identifier) (c d : Counters)
    (o o' : Outcome α) : Prop where
  result : o.result.map look = o'.result.map look
  part : k.store (o.store.part x) = k.store (o'.store.part x)
  asked : o.asked = o'.asked
  own : ∀ r, o.asked = some r → r.escrow = x
  counters : ∃ n, o.counters = { c with events := c.events + n } ∧
    o'.counters = { d with events := d.events + n }

section Transactions

variable {k : Look} {env env' : Surroundings} {x : Identifier} {s t : Store} {c d : Counters}

/-- What comes to nothing looks alike wherever the escrow looks alike. -/
theorem Outcome.alike_of_ended {α : Type} {look : α → α} (hpart : s.part x = t.part x)
    (r : Except Failure α) (log log' : List LogEntry) :
    Outcome.Alike k look x c d ⟨r, s, c, log, [], none, none⟩ ⟨r, t, d, log', [], none, none⟩ :=
  ⟨rfl, congrArg k.store hpart, rfl, (fun _ h => nomatch h), 0, rfl, rfl⟩

/-- What a transaction comes to depends on its escrow alone. -/
theorem carryOut_alike (by' : Caller) {plan : Escrow → List Condition → Plan}
    (henv : env.Alike k env' x) (hnum : k.Numbers (c.events + 1) (d.events + 1))
    (hs : ∀ e ∈ s.escrows, e.Sound) (hpart : s.part x = t.part x)
    (hasks : ∀ e cs, (plan e cs).AsksFor e) (htakes : ∀ e cs, (plan e cs).TakesName)
    (hdeed : ∀ e : Escrow, e.Sound → ∀ cs ask,
      ((plan e.loaded cs).conclude ask).verdict = .ok () →
      ((plan e.loaded cs).conclude ask).IsDeed by' e.loaded cs ask) :
    (carryOut env x plan s c).Alike k k.escrow x c d (carryOut env' x plan t d) := by
  have hstored := Store.stored?_of_part hpart
  have hconditions := Store.conditionsOf_of_part hpart
  cases he : s.stored? x with
  | none =>
    have ht : t.stored? x = none := hstored.symm.trans he
    rw [carryOut_of_none (Store.escrow?_of_not_stored? he),
      carryOut_of_none (Store.escrow?_of_not_stored? ht)]
    exact Outcome.alike_of_ended hpart ..
  | some e =>
    have ht : t.stored? x = some e := hstored.symm.trans he
    have hid : e.id = x := by simpa using List.find?_some he
    have hread : s.escrow? x = some e.loaded := Store.escrow?_of_stored? he
    have hread' : t.escrow? x = some e.loaded := Store.escrow?_of_stored? ht
    have hsound := hs e (List.mem_of_find?_eq_some he)
    have halike : ((plan e.loaded (s.conditionsOf x)).conclude env.ask).Alike k
        ((plan e.loaded (t.conditionsOf x)).conclude env'.ask) := by
      rw [← hconditions]
      refine Plan.conclude_alike (hasks _ _) (htakes _ _) fun r hr => henv.ask r ?_
      exact hr.trans hid
    have hown : ∀ r, ((plan e.loaded (s.conditionsOf x)).conclude env.ask).asked = some r →
        r.escrow = x := by
      intro r hr
      obtain ⟨paid, hnext⟩ := Plan.next_of_asked hr
      exact (hasks _ _ r paid hnext).1.trans hid
    cases hv : ((plan e.loaded (s.conditionsOf x)).conclude env.ask).verdict with
    | error f =>
      rw [carryOut_of_error hread rfl hv,
        carryOut_of_error hread' rfl (halike.verdict.symm.trans hv)]
      exact ⟨rfl, congrArg k.store hpart, halike.asked, hown, _, rfl,
        by rw [halike.writes.length_drafts]⟩
    | ok _ =>
      -- What succeeds is a deed, and a sound record takes it.
      have hv' := halike.verdict.symm.trans hv
      obtain ⟨paid, hd, -, -⟩ := hdeed e hsound _ _ hv
      obtain ⟨paid', hd', -, -⟩ := hdeed e hsound _ _ hv'
      rw [carryOut_of_ok hread rfl hv (hd.apply_eq_ok hsound he env.now _),
        carryOut_of_ok hread' rfl hv' (hd'.apply_eq_ok hsound ht env'.now _)]
      refine ⟨?result, ?part, halike.asked, hown, _, rfl, by rw [halike.writes.length_drafts]⟩
      case result => exact congrArg Except.ok (halike.writes.view henv.now e.loaded)
      case part =>
        show k.store ((s.written ..).part x) = k.store ((t.written ..).part x)
        rw [Store.part_written_self, Store.part_written_self, ← hpart]
        exact halike.writes.written henv.now _ x hnum

theorem underLock_alike {α : Type} {look : α → α} {work work' : Store → Counters → Outcome α}
    (henv : env.Alike k env' x) (hpart : s.part x = t.part x)
    (hw : (work s c).Alike k look x c d (work' t d)) :
    (underLock env x work s c).Alike k look x c d (underLock env' x work' t d) := by
  unfold underLock
  rw [henv.lease, henv.database]
  split
  next => exact Outcome.alike_of_ended hpart ..
  next =>
    cases env'.database with
    | some f => exact Outcome.alike_of_ended hpart ..
    | none => exact ⟨hw.result, hw.part, hw.asked, hw.own, hw.counters⟩

end Transactions

/-! ## Operations -/

/-- Whether it matters for an operation what the clock shows: only for an expiry that is not told the
time. -/
def Operation.ReadsClock : Operation → Prop
  | .task _ (.expire _ none) => True
  | _ => False

theorem Task.plan_eq_of_clock {x : Identifier} {t : Task} {now now' : Moment}
    (h : (Operation.task x t).ReadsClock → now = now') (by' : Caller) (e : Escrow)
    (cs : List Condition) : t.plan now by' e cs = t.plan now' by' e cs := by
  cases t with
  | expire reason n =>
    cases n with
    | none => rw [h trivial]
    | some n => rfl
  | _ => rfl

section Conditions

variable {s t : Store} {x κ : Identifier}

/-- A condition is found wherever its escrow is the same. -/
theorem Store.condition?_of_part (hs : (s.conditions.map (·.id)).Nodup)
    (ht : (t.conditions.map (·.id)).Nodup) {q : Condition} (h : s.condition? κ = some q)
    (hpart : s.part q.escrow = t.part q.escrow) : t.condition? κ = some q := by
  have hq := find?_conditionsOf_of_condition? hs h
  rw [conditionsOf_of_part hpart] at hq
  have hid : q.id = κ := by simpa using List.find?_some hq
  subst hid
  exact (find?_eq_some_iff_mem ht).mpr (List.mem_filter.mp (List.mem_of_find?_eq_some hq)).1

/-- An operation is about the same escrow wherever that is the same. -/
theorem Operation.target?_of_part {op : Operation} (hs : (s.conditions.map (·.id)).Nodup)
    (ht : (t.conditions.map (·.id)).Nodup) (h : op.target? s = some x)
    (hpart : s.part x = t.part x) : op.target? t = some x := by
  cases op with
  | create n => cases h
  | task y a => exact h
  | confirm κ =>
    obtain ⟨q, hq, rfl⟩ := Option.map_eq_some_iff.mp h
    exact Option.map_eq_some_iff.mpr ⟨q, Store.condition?_of_part hs ht hq hpart, rfl⟩

/-- Conditions of escrows that look alike look alike. -/
theorem Look.condition?_eq {k : Look} (hs : (s.conditions.map (·.id)).Nodup)
    (ht : (t.conditions.map (·.id)).Nodup) (hks : (κ, x) ∈ s.names.2) (hkt : (κ, x) ∈ t.names.2)
    (h : k.store (s.part x) = k.store (t.part x)) :
    (s.condition? κ).map k.condition = (t.condition? κ).map k.condition := by
  have hfind : ∀ l : List Condition, (l.map k.condition).find? (fun q => q.id = κ) =
      (l.find? fun q => q.id = κ).map k.condition := by
    intro l
    rw [List.find?_map]
    rfl
  have hconditions : (s.conditionsOf x).map k.condition = (t.conditionsOf x).map k.condition :=
    congrArg Store.conditions h
  obtain ⟨q, hq, -, hqx⟩ := Store.condition?_of_names hs hks
  obtain ⟨r, hr, -, hrx⟩ := Store.condition?_of_names ht hkt
  have hfq := Store.find?_conditionsOf_of_condition? hs hq
  have hfr := Store.find?_conditionsOf_of_condition? ht hr
  rw [hqx] at hfq
  rw [hrx] at hfr
  rw [hq, hr, ← hfq, ← hfr, ← hfind, ← hfind, hconditions]

/-- A condition that was there before looks as its escrow does afterwards. -/
theorem Look.condition?_getD {k : Look} {s' t' : Store} (hs : (s.conditions.map (·.id)).Nodup)
    (ht : (t.conditions.map (·.id)).Nodup) {q : Condition} (hq : s.condition? κ = some q)
    (hq' : t.condition? κ = some q) (hnames : s'.names = s.names) (hnames' : t'.names = t.names)
    (h : k.store (s'.part q.escrow) = k.store (t'.part q.escrow)) :
    k.condition ((s'.condition? κ).getD q) = k.condition ((t'.condition? κ).getD q) := by
  have hmem : ∀ {r : Store}, r.condition? κ = some q → (κ, q.escrow) ∈ r.names.2 := fun hr =>
    Store.mem_names_iff.mpr ⟨q, List.mem_of_find?_eq_some hr, by simpa using List.find?_some hr, rfl⟩
  have hmems := hmem hq
  have hmemt := hmem hq'
  rw [← hnames] at hmems
  rw [← hnames'] at hmemt
  have hdistinct := Store.nodup_of_names hnames hs
  have hdistinct' := Store.nodup_of_names hnames' ht
  have hfound := condition?_eq hdistinct hdistinct' hmems hmemt h
  obtain ⟨a, ha, -, -⟩ := Store.condition?_of_names hdistinct hmems
  obtain ⟨b, hb, -, -⟩ := Store.condition?_of_names hdistinct' hmemt
  rw [ha, hb] at hfound ⊢
  exact Option.some.inj hfound

end Conditions

/-- What is read of an escrow depends on that escrow alone. -/
theorem Store.reads_of_part {s t : Store} {x : Identifier} (h : s.part x = t.part x)
    (user : Option String) :
    s.readEscrow x user = t.readEscrow x user ∧ s.readEvents x user = t.readEvents x user := by
  have hescrow : s.readEscrow x user = t.readEscrow x user := by
    unfold readEscrow find
    rw [escrow?, escrow?, stored?_of_part h]
  have hevents : s.eventsOf x = t.eventsOf x :=
    congrArg (fun s : Store => s.events.mergeSort fun a b => a.sequence ≤ b.sequence) h
  refine ⟨hescrow, ?_⟩
  unfold readEvents
  rw [hescrow, hevents]

section Operations

variable {k : Look} {env env' : Surroundings} {x : Identifier} {s t : Store} {c d : Counters}
  {op : Operation}

/-- An operation on an escrow that is there keeps the names. -/
theorem Operation.names_run (env : Surroundings) (hk : Kept s c) (hx : op.target? s = some x)
    (by' : Caller) : (op.run env by' s s c).store.names = s.names := by
  have hcomes := op.run_comes env hk.sound by' s c
  generalize op.run env by' s s c = o at hcomes ⊢
  cases hcomes with
  | failed h => rw [h.store]
  | idle => rfl
  | created hop =>
    rw [hop] at hx
    cases hx
  | @done o e w paid _ h answer =>
    show o.store.names = s.names
    rw [h.store]
    exact Store.names_written ..

/-- What an operation comes to depends on its escrow alone. -/
theorem Operation.run_alike (by' : Caller) (henv : env.Alike k env' x)
    (hnum : k.Numbers (c.events + 1) (d.events + 1)) (hs : Kept s c) (ht : Kept t d)
    (hpart : s.part x = t.part x) (hx : op.target? s = some x)
    (hclock : op.ReadsClock → env.now = env'.now) :
    (op.run env by' s s c).Alike k k.answer x c d (op.run env' by' t t d) := by
  have hnames := names_run env hs hx by'
  have hnames' := names_run env' ht
    (target?_of_part hs.conditionsDistinct ht.conditionsDistinct hx hpart) by'
  cases op with
  | create n => cases hx
  | task y a =>
    obtain rfl : y = x := Option.some.inj hx
    have hplan : (fun e cs => a.plan env.now by' e cs) = fun e cs => a.plan env'.now by' e cs := by
      funext e cs
      exact Task.plan_eq_of_clock hclock by' e cs
    have hcarried : (carryOut env y (fun e cs => a.plan env.now by' e cs) s c).Alike k k.escrow y c d
        (carryOut env' y (fun e cs => a.plan env.now by' e cs) t d) :=
      carryOut_alike by' henv hnum hs.sound hpart (fun _ _ => Plan.asksFor_task a env.now)
        (fun _ _ => Plan.takesName_task a env.now) fun _ _ _ _ hv => Task.isDeed hv
    have hwork := underLock_alike henv hpart hcarried
    simp only [run, ← hplan]
    refine ⟨?_, hwork.part, hwork.asked, hwork.own, hwork.counters⟩
    rcases Except.map_eq_cases hwork.result with ⟨e, e', he, he', hee⟩ | ⟨f, hf, hf'⟩
    · simp only [Outcome.mapResult, he, he']
      exact congrArg (fun e => Except.ok (Answer.escrow e)) hee
    · simp only [Outcome.mapResult, hf, hf', Except.map]
  | confirm κ =>
    obtain ⟨q, hq, rfl⟩ := Option.map_eq_some_iff.mp hx
    have hq' := Store.condition?_of_part hs.conditionsDistinct ht.conditionsDistinct hq hpart
    simp only [run, confirmCondition, hq, hq', henv.database] at hnames hnames' ⊢
    cases hdb : env'.database with
    | some f => exact Outcome.alike_of_ended hpart ..
    | none =>
      simp only [hdb] at hnames hnames' ⊢
      split
      next => exact Outcome.alike_of_ended hpart ..
      next hm =>
        simp only [if_neg hm] at hnames hnames'
        -- The condition was open when it was looked up, so its escrow is worked on.
        have hcarried : (carryOut env q.escrow (planConfirmation κ by') s c).Alike k k.escrow
            q.escrow c d (carryOut env' q.escrow (planConfirmation κ by') t d) :=
          carryOut_alike by' henv hnum hs.sound hpart (fun _ _ => Plan.asksFor_confirmation κ)
            (fun _ _ => Plan.takesName_confirmation κ)
            fun e he _ _ hv => isDeed_planConfirmation (fun hr => he.released_iff.mp hr) hv
        have hwork := underLock_alike henv hpart hcarried
        refine ⟨?_, hwork.part, hwork.asked, hwork.own, hwork.counters⟩
        have hlook := Look.condition?_getD hs.conditionsDistinct ht.conditionsDistinct hq hq' hnames
          hnames' hwork.part
        rcases Except.map_eq_cases hwork.result with ⟨e, e', he, he', -⟩ | ⟨f, hf, hf'⟩
        · simp only [Outcome.mapResult, he, he']
          exact congrArg (fun c => Except.ok (Answer.condition c)) hlook
        · simp only [Outcome.mapResult, hf, hf', Except.map]

/-- An operation on an escrow leaves the records of the others alone. -/
theorem Operation.part_run (env : Surroundings) (hk : Kept s c) (hx : op.target? s = some x)
    {y : Identifier} (hy : y ≠ x) (by' : Caller) :
    (op.run env by' s s c).store.part y = s.part y := by
  have hcomes := op.run_comes env hk.sound by' s c
  generalize op.run env by' s s c = o at hcomes ⊢
  cases hcomes with
  | failed h => rw [h.store]
  | idle => rfl
  | created hop =>
    rw [hop] at hx
    cases hx
  | @done o e w paid hx' h answer =>
    obtain rfl : e.id = x := Option.some.inj (hx'.symm.trans hx)
    show o.store.part y = s.part y
    rw [h.store]
    exact Store.part_written_deed hk.conditionsDistinct h.deed hy _ _

end Operations

/-! ## The ledger -/

namespace SimulatedLedger

variable {l m : SimulatedLedger} {z : String} {r : SettleRequest}

/-- A settlement changes the view of its escrow, and no other. -/
theorem view?_settle {t : String} (ht : l.answer = .ok t) (escrow beneficiary z : String) :
    (l.settle escrow beneficiary).view? z =
      if z = escrow then (l.view? z).map (settledView t) else l.view? z := by
  simp only [settle, ht, view?, List.find?_map, Option.map_map]
  have hfind : ((fun v : String × RawState => decide (v.1 = z)) ∘ fun v : String × RawState =>
      if v.1 = escrow then (v.1, settledView t v.2) else (v.1, v.2)) = fun v => decide (v.1 = z) := by
    funext v
    simp only [Function.comp_apply]
    split <;> rfl
  rw [hfind]
  cases hf : l.views.find? fun v => v.1 = z with
  | none => simp
  | some v =>
    have hv : v.1 = z := by simpa using List.find?_some hf
    subst hv
    simp only [Option.map_some, Function.comp_apply]
    split <;> rfl

theorem settle_of_error {f : Failure} (hf : l.answer = .error f) (escrow beneficiary : String) :
    l.settle escrow beneficiary = l := by
  simp only [settle, hf]

theorem settlementsOf_settle {t : String} (ht : l.answer = .ok t) (x : Identifier)
    (escrow beneficiary : String) :
    (l.settle escrow beneficiary).settlementsOf x = l.settlementsOf x ++
      if escrow = x.text then [⟨escrow, beneficiary, t⟩] else [] := by
  simp only [settle, ht, settlementsOf, List.filter_append]
  by_cases he : escrow = x.text <;> simp [he]

/-- Up to the name of a transaction, whether it is told to fail decides what a ledger answers. -/
theorem answer_blurred (l : SimulatedLedger) : l.answer.map Look.blurred.name =
    match l.failing with
    | some f => .error f
    | none => .ok "" := by
  unfold answer
  cases l.failing <;> rfl

end SimulatedLedger

/-! ## Services -/

namespace Service

/-- Services agree on an escrow: what the stores have about it and what the ledgers show of it and
have settled for it look alike. -/
structure Agree (k : Look) (v u : Service) (x : Identifier) : Prop where
  part : k.store (v.store.part x) = k.store (u.store.part x)
  view : (v.ledger.view? x.text).map k.view = (u.ledger.view? x.text).map k.view
  settlements : (v.ledger.settlementsOf x).map k.settlement =
    (u.ledger.settlementsOf x).map k.settlement

/-- Services whose surroundings look alike: the clock, the database, the lock, the answer of the
ledger and the numbers of the events to come. -/
structure Around (k : Look) (v u : Service) : Prop where
  clock : k.stamp v.now = k.stamp u.now
  database : v.database = u.database
  lease : v.lease = u.lease
  answer : v.ledger.answer.map k.name = u.ledger.answer.map k.name
  numbers : k.Numbers (v.counters.events + 1) (u.counters.events + 1)

section Agree

variable {k : Look} {v u w : Service} {x y : Identifier} {op : Operation} {by' : Caller}

/-- Seen clearly, services agree when nothing differs. -/
theorem agree_clear_iff : v.Agree .clear u x ↔
    v.store.part x = u.store.part x ∧ v.ledger.view? x.text = u.ledger.view? x.text ∧
      v.ledger.settlementsOf x = u.ledger.settlementsOf x := by
  have hviews : ∀ o : Option RawState, o.map Look.clear.view = o := by
    intro o
    cases o <;> simp
  have hsettled : ∀ qs : List Settlement, qs.map Look.clear.settlement = qs :=
    List.map_id'' Look.clear_settlement
  constructor
  · rintro ⟨hp, hv, hs⟩
    simp only [Look.clear_store, hviews, hsettled] at hp hv hs
    exact ⟨hp, hv, hs⟩
  · rintro ⟨hp, hv, hs⟩
    exact ⟨by rw [hp], by rw [hv], by rw [hs]⟩

theorem Agree.symm (h : v.Agree k u x) : u.Agree k v x :=
  ⟨h.part.symm, h.view.symm, h.settlements.symm⟩

theorem Agree.trans (h : v.Agree k u x) (h' : u.Agree k w x) : v.Agree k w x :=
  ⟨h.part.trans h'.part, h.view.trans h'.view, h.settlements.trans h'.settlements⟩

/-- What agrees when seen clearly agrees however it is seen. -/
theorem Agree.of_clear (h : v.Agree .clear u x) (k : Look) : v.Agree k u x := by
  obtain ⟨hp, hv, hs⟩ := agree_clear_iff.mp h
  exact ⟨by rw [hp], by rw [hv], by rw [hs]⟩

theorem Around.alike (h : v.Around k u) (x : Identifier) :
    v.surroundings.Alike k u.surroundings x := by
  refine ⟨h.clock, h.database, h.lease, fun r _ => ?_⟩
  show (v.ask r).result.map k.name = (u.ask r).result.map k.name
  rw [ask_result, ask_result]
  exact h.answer

/-- Ledgers that agree on an escrow still do when both are asked to settle it. -/
theorem Agree.ledgerAfter {asked : Option SettleRequest} (h : v.Agree k u x)
    (ha : v.ledger.answer.map k.name = u.ledger.answer.map k.name)
    (hown : ∀ r, asked = some r → r.escrow = x) :
    ((Service.ledgerAfter v.ledger asked).view? x.text).map k.view =
        ((Service.ledgerAfter u.ledger asked).view? x.text).map k.view ∧
      ((Service.ledgerAfter v.ledger asked).settlementsOf x).map k.settlement =
        ((Service.ledgerAfter u.ledger asked).settlementsOf x).map k.settlement := by
  cases asked with
  | none => exact ⟨h.view, h.settlements⟩
  | some r =>
    have hr : r.escrow = x := hown r rfl
    subst hr
    simp only [Service.ledgerAfter]
    rcases Except.map_eq_cases ha with ⟨t, t', ht, ht', hname⟩ | ⟨f, hf, hf'⟩
    · -- Views that look alike still do once both are settled.
      have hsettled : ∀ a b : RawState, k.view a = k.view b →
          k.view (SimulatedLedger.settledView t a) = k.view (SimulatedLedger.settledView t' b) := by
        intro a b hab
        obtain ⟨-, hamount, -, -, hdeadline⟩ := RawState.mk.inj hab
        simp only [SimulatedLedger.settledView, Look.view, hname, hamount, hdeadline]
      constructor
      · rw [SimulatedLedger.view?_settle ht, SimulatedLedger.view?_settle ht', if_pos rfl,
          if_pos rfl]
        have hview := h.view
        generalize v.ledger.view? r.escrow.text = a at hview ⊢
        generalize u.ledger.view? r.escrow.text = b at hview ⊢
        cases a with
        | none =>
          rw [Option.map_eq_none_iff.mp hview.symm]
          rfl
        | some a =>
          obtain ⟨b, rfl, hab⟩ := Option.map_eq_some_iff.mp hview.symm
          exact congrArg some (hsettled a b hab.symm)
      · rw [SimulatedLedger.settlementsOf_settle ht, SimulatedLedger.settlementsOf_settle ht',
          if_pos rfl, if_pos rfl, List.map_append, List.map_append, h.settlements]
        simp only [List.map_cons, List.map_nil, Look.settlement, hname]
    · rw [SimulatedLedger.settle_of_error hf, SimulatedLedger.settle_of_error hf']
      exact ⟨h.view, h.settlements⟩

/-- A ledger that was asked about one escrow agrees with itself on the others. -/
theorem agree_ledgerAfter_of_ne {l : SimulatedLedger} {asked : Option SettleRequest}
    (hown : ∀ r, asked = some r → r.escrow = x) (hy : y ≠ x) :
    (Service.ledgerAfter l asked).view? y.text = l.view? y.text ∧
      (Service.ledgerAfter l asked).settlementsOf y = l.settlementsOf y := by
  cases asked with
  | none => exact ⟨rfl, rfl⟩
  | some r =>
    have hne : y.text ≠ r.escrow.text := by
      rw [hown r rfl]
      exact fun h => hy (Identifier.text_injective h)
    simp only [Service.ledgerAfter]
    cases ha : l.answer with
    | error f => rw [SimulatedLedger.settle_of_error ha]; exact ⟨rfl, rfl⟩
    | ok t =>
      rw [SimulatedLedger.view?_settle ha, SimulatedLedger.settlementsOf_settle ha, if_neg hne,
        if_neg (Ne.symm hne), List.append_nil]
      exact ⟨rfl, rfl⟩

/-- Services that agree on an escrow, in surroundings that look alike, answer an operation on it alike
and agree on it afterwards. As many numbers of events are used up. -/
theorem perform_agree (hv : Reachable v) (hu : Reachable u) (ha : v.Around k u)
    (h : v.Agree .clear u x) (hx : op.target? v.store = some x)
    (hclock : op.ReadsClock → v.now = u.now) (by' : Caller) :
    (v.perform by' op).1.map k.answer = (u.perform by' op).1.map k.answer ∧
      (v.perform by' op).2.1.Agree k (u.perform by' op).2.1 x ∧
      ∃ n, (v.perform by' op).2.1.counters =
          { v.counters with events := v.counters.events + n } ∧
        (u.perform by' op).2.1.counters =
          { u.counters with events := u.counters.events + n } := by
  obtain ⟨hpart, -, -⟩ := agree_clear_iff.mp h
  have hrun := Operation.run_alike by' (ha.alike x) ha.numbers hv.kept hu.kept hpart hx hclock
  obtain ⟨hview, hsettlements⟩ := (h.of_clear k).ledgerAfter ha.answer hrun.own
  have hasked := hrun.asked
  refine ⟨hrun.result, ⟨hrun.part, ?_, ?_⟩, hrun.counters⟩
  · show _ = ((Service.ledgerAfter u.ledger (op.run u.surroundings by' u.store u.store
      u.counters).asked).view? x.text).map k.view
    rw [← hasked]
    exact hview
  · show _ = ((Service.ledgerAfter u.ledger (op.run u.surroundings by' u.store u.store
      u.counters).asked).settlementsOf x).map k.settlement
    rw [← hasked]
    exact hsettlements

theorem Around.refl (k : Look) (v : Service) : v.Around k v :=
  ⟨rfl, rfl, rfl, rfl, fun _ => rfl⟩

theorem Agree.refl (k : Look) (v : Service) (x : Identifier) : v.Agree k v x := ⟨rfl, rfl, rfl⟩

/-- After an operation on one escrow a service agrees with itself on the others. -/
theorem perform_spares (hv : Reachable v) (hx : op.target? v.store = some x) (hy : y ≠ x)
    (by' : Caller) : v.Agree .clear (v.perform by' op).2.1 y := by
  have hrun := Operation.run_alike by' ((Around.refl .clear v).alike x) (fun _ => rfl) hv.kept
    hv.kept rfl hx fun _ => rfl
  obtain ⟨hview, hsettlements⟩ := agree_ledgerAfter_of_ne (l := v.ledger) hrun.own hy
  exact agree_clear_iff.mpr ⟨(Operation.part_run v.surroundings hv.kept hx hy by').symm,
    hview.symm, hsettlements.symm⟩

end Agree

/-! ### Either order -/

/-- What an operation comes to at a reading of the clock. -/
def performAt (v : Service) (clock : Int) (by' : Caller) (op : Operation) :
    Except Failure Answer × Service :=
  let r := (v.after (.clock clock)).perform by' op
  (r.1, r.2.1)

section Either

variable {v u : Service} {x y : Identifier} {op op' : Operation}

theorem reachable_performAt (hv : Reachable v) (clock : Int) (by' : Caller) (op : Operation) :
    Reachable (v.performAt clock by' op).2 :=
  (hv.step (.clock clock)).step (.operation by' op)

theorem performAt_spares (hv : Reachable v) (hx : op.target? v.store = some x) (hy : y ≠ x)
    (clock : Int) (by' : Caller) : v.Agree .clear (v.performAt clock by' op).2 y := by
  have h := perform_spares (hv.step (.clock clock)) hx hy by'
  exact ⟨h.part, h.view, h.settlements⟩

/-- An operation goes on being about its escrow. -/
theorem target?_performAt (hv : Reachable v) (hx : op.target? v.store = some x)
    (hy : op'.target? v.store = some y) (hne : y ≠ x) (clock : Int) (by' : Caller) :
    op'.target? (v.performAt clock by' op).2.store = some y :=
  Operation.target?_of_part hv.kept.conditionsDistinct
    (reachable_performAt hv clock by' op).kept.conditionsDistinct hy
    (agree_clear_iff.mp (performAt_spares hv hx hne clock by')).1

/-- An operation mends and breaks nothing. -/
theorem order_performAt (v : Service) (clock : Int) (by' : Caller) (op : Operation) :
    (v.performAt clock by' op).2.database = v.database ∧
      (v.performAt clock by' op).2.lease = v.lease ∧
      (v.performAt clock by' op).2.ledger.failing = v.ledger.failing :=
  ⟨rfl, rfl, failing_ledgerAfter v.ledger _⟩

/-- Services that agree on an escrow answer an operation on it alike and agree on it afterwards, up to
fresh values, where the same is in order. -/
theorem performAt_agree (hv : Reachable v) (hu : Reachable u)
    (horder : u.database = v.database ∧ u.lease = v.lease ∧ u.ledger.failing = v.ledger.failing)
    (h : v.Agree .clear u x) (hx : op.target? v.store = some x) {i i' : Int}
    (hclock : op.ReadsClock → i = i') (by' : Caller) :
    (v.performAt i by' op).1.map Look.blurred.answer =
        (u.performAt i' by' op).1.map Look.blurred.answer ∧
      (v.performAt i by' op).2.Agree .blurred (u.performAt i' by' op).2 x ∧
      ∃ n, (v.performAt i by' op).2.counters =
          { v.counters with events := v.counters.events + n } ∧
        (u.performAt i' by' op).2.counters =
          { u.counters with events := u.counters.events + n } := by
  obtain ⟨hdatabase, hlease, hfailing⟩ := horder
  have hanswer : v.ledger.answer.map Look.blurred.name = u.ledger.answer.map Look.blurred.name := by
    rw [SimulatedLedger.answer_blurred, SimulatedLedger.answer_blurred, hfailing]
  have haround : (v.after (.clock i)).Around .blurred (u.after (.clock i')) :=
    ⟨rfl, hdatabase.symm, hlease.symm, hanswer, fun _ => rfl⟩
  have hnow : op.ReadsClock → (v.after (.clock i)).now = (u.after (.clock i')).now :=
    fun hr => congrArg Moment.utc (hclock hr)
  have hagree : (v.after (.clock i)).Agree .clear (u.after (.clock i')) x :=
    ⟨h.part, h.view, h.settlements⟩
  exact perform_agree (hv.step (.clock i)) (hu.step (.clock i')) haround hagree hx hnow by'

/-- Operations on different escrows commute up to fresh values. -/
theorem performAt_commute {by' who : Caller} {i i' j j' : Int} (hv : Reachable v)
    (hx : op.target? v.store = some x) (hy : op'.target? v.store = some y) (hne : y ≠ x)
    (hi : op.ReadsClock → i = i') (hj : op'.ReadsClock → j = j') :
    let first := v.performAt i by' op
    let second := first.2.performAt j who op'
    let second' := v.performAt j' who op'
    let first' := second'.2.performAt i' by' op
    first.1.map Look.blurred.answer = first'.1.map Look.blurred.answer ∧
      second.1.map Look.blurred.answer = second'.1.map Look.blurred.answer ∧
      (∀ z, second.2.Agree .blurred first'.2 z) ∧ second.2.counters = first'.2.counters := by
  intro first second second' first'
  have hreach : Reachable first.2 := reachable_performAt hv i by' op
  have hreach' : Reachable second'.2 := reachable_performAt hv j' who op'
  have hy' : op'.target? first.2.store = some y := target?_performAt hv hx hy hne i by'
  have hx' : op.target? second'.2.store = some x := target?_performAt hv hy hx hne.symm j' who
  obtain ⟨hfirst, hfirstAgree, m, hm, hm'⟩ := performAt_agree hv hreach'
    (order_performAt v j' who op') (performAt_spares hv hy hne.symm j' who) hx hi by'
  obtain ⟨hsecond, hsecondAgree, n, hn, hn'⟩ := performAt_agree hv hreach
    (order_performAt v i by' op) (performAt_spares hv hx hne i by') hy (fun h => (hj h).symm) who
  refine ⟨hfirst, hsecond.symm, fun z => ?_, ?_⟩
  · by_cases hzx : z = x
    · subst hzx
      have hspared := performAt_spares hreach hy' hne.symm j who
      exact (hspared.symm.of_clear .blurred).trans hfirstAgree
    · by_cases hzy : z = y
      · subst hzy
        have hspared := performAt_spares hreach' hx' hne i' by'
        exact hsecondAgree.symm.trans (hspared.of_clear .blurred)
      · -- Neither of the two does anything there.
        have h1 := performAt_spares hv hx hzx i by'
        have h2 := performAt_spares hreach hy' hzy j who
        have h1' := performAt_spares hv hy hzy j' who
        have h2' := performAt_spares hreach' hx' hzx i' by'
        exact ((h1.trans h2).symm.trans (h1'.trans h2')).of_clear .blurred
  · rw [hn', hm', hm, hn]
    simp only [Nat.add_assoc, Nat.add_comm m n]

end Either

end Service

open Service in
/-- An operation on an escrow, by whomever and with whatever arguments, leaves nothing changed of any
other: neither its records nor the ledger's view of it. Its answer, and what it leaves of its
escrow, depend on that escrow and on the surroundings alone: services that have the same about the
escrow answer the same and have the same about it afterwards, and so does what is read of it. And
with an operation on another escrow it commutes: in either order both are answered alike, on every
escrow the services agree, and as many numbers were used, up to fresh values. The readings of the
clock may differ for operations that do not judge by them. -/
theorem escrows_independent {v : Service} (hv : Reachable v) {op : Operation} {x : Identifier}
    (hx : op.target? v.store = some x) (by' : Caller) :
    (∀ y, y ≠ x → v.Agree .clear (v.perform by' op).2.1 y) ∧
    (∀ u, Reachable u → v.Around .clear u → v.store.part x = u.store.part x →
      (v.perform by' op).1 = (u.perform by' op).1 ∧
        (v.perform by' op).2.1.store.part x = (u.perform by' op).2.1.store.part x ∧
        (v.Agree .clear u x → (v.perform by' op).2.1.Agree .clear (u.perform by' op).2.1 x) ∧
        ∀ user, v.read (v.store.readEscrow x user) = u.read (u.store.readEscrow x user) ∧
          v.read (v.store.readEvents x user) = u.read (u.store.readEvents x user)) ∧
    ∀ op' y who i i' j j', op'.target? v.store = some y → y ≠ x →
      (op.ReadsClock → i = i') → (op'.ReadsClock → j = j') →
      let first := v.performAt i by' op
      let second := first.2.performAt j who op'
      let second' := v.performAt j' who op'
      let first' := second'.2.performAt i' by' op
      first.1.map Look.blurred.answer = first'.1.map Look.blurred.answer ∧
        second.1.map Look.blurred.answer = second'.1.map Look.blurred.answer ∧
        (∀ z, second.2.Agree .blurred first'.2 z) ∧ second.2.counters = first'.2.counters := by
  refine ⟨fun y hy => perform_spares hv hx hy by', fun u hu ha hpart => ?_,
    fun _ _ _ _ _ _ _ hy hne hi hj => performAt_commute hv hx hy hne hi hj⟩
  have hclock : op.ReadsClock → v.now = u.now := fun _ => ha.clock
  have hrun := Operation.run_alike by' (ha.alike x) ha.numbers hv.kept hu.kept hpart hx hclock
  have hresult := hrun.result
  have hleft := hrun.part
  rw [Look.map_clear_answer, Look.map_clear_answer] at hresult
  rw [Look.clear_store, Look.clear_store] at hleft
  refine ⟨hresult, hleft, fun h => (perform_agree hv hu ha h hx hclock by').2.1, fun user => ?_⟩
  obtain ⟨hescrow, hevents⟩ := Store.reads_of_part hpart user
  unfold Service.read
  rw [ha.database, hescrow, hevents]
  exact ⟨rfl, rfl⟩

/-- Two sales next to each other, both in force. -/
def twoSalesService : Service :=
  soldService.run
    [.operation ⟨"buyer", none⟩ (.create sale),
      .operation ⟨"buyer", none⟩ (.task (Identifier.escrow 2) (.activate (some "funds")))]

open Service in
/-- A confirmation in the one sale and a dispute over the other commute. -/
theorem escrows_independent_twoSalesService :
    let confirm := Operation.confirm (Identifier.condition 1)
    let dispute := Operation.task (Identifier.escrow 2) (.dispute "late")
    let first := twoSalesService.performAt 1 ⟨"seller", none⟩ confirm
    let second := first.2.performAt 2 ⟨"buyer", none⟩ dispute
    let second' := twoSalesService.performAt 2 ⟨"buyer", none⟩ dispute
    let first' := second'.2.performAt 3 ⟨"seller", none⟩ confirm
    confirm.target? twoSalesService.store = some (Identifier.escrow 1) ∧
      first.1.map Look.blurred.answer = first'.1.map Look.blurred.answer ∧
      second.1.map Look.blurred.answer = second'.1.map Look.blurred.answer ∧
      ∀ z, second.2.Agree .blurred first'.2 z := by
  intro confirm dispute first second second' first'
  have hreachable : Reachable twoSalesService := soldService_reachable.run _
  have htarget : confirm.target? twoSalesService.store = some (Identifier.escrow 1) := by
    decide +kernel
  obtain ⟨-, -, hcommute⟩ := escrows_independent hreachable htarget ⟨"seller", none⟩
  obtain ⟨hfirst, hsecond, hagree, -⟩ := hcommute dispute (Identifier.escrow 2) ⟨"buyer", none⟩
    1 3 2 2 rfl (by decide +kernel) (fun h => nomatch h) fun _ => rfl
  exact ⟨htarget, hfirst, hsecond, hagree⟩

end Custody

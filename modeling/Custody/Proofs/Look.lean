import Custody.Proofs.Convergence
import Custody.Proofs.Demand
import Custody.Proofs.Turn

/-!
# Looks

What is done to an escrow takes some values from outside that are new each time: the name of a
transaction, the numbers of events, readings of the clock. A look says how much of them is seen.
Through the clear one everything is seen as it is; through the blurred one fresh values are not told
apart. Writes that look alike make of the same records what looks alike, and a plan takes nothing
but the name of a transaction from the ledger.

> `part_written_self`: writes about an escrow need nothing else of the store.
> `Writes.Alike.written`: writes that look alike make of the same store what looks alike.
> `Plan.conclude_alike`: a plan that hears what sounds alike comes to what looks alike.
-/

namespace Custody

/-- How fresh values are seen: names of transactions, numbers of events, readings of the clock. -/
structure Look where
  name : String → String
  number : Identifier → Identifier
  stamp : Moment → Moment

namespace Look

/-- Everything is seen as it is. -/
def clear : Look := ⟨id, id, id⟩

/-- Fresh values are not told apart. -/
def blurred : Look := ⟨fun _ => "", fun _ => Identifier.event 0, fun _ => Moment.utc 0⟩

section Sight

variable (k : Look)

/-- A record as it is seen. -/
def escrow (e : Escrow) : Escrow :=
  { e with releaseTransaction := e.releaseTransaction.map k.name, updatedAt := k.stamp e.updatedAt }

/-- A condition as it is seen. -/
def condition (c : Condition) : Condition := { c with metAt := c.metAt.map k.stamp }

/-- The data of an event as they are seen. -/
def data : EventData → EventData
  | .completed basis b t => .completed basis b (k.name t)
  | d => d

/-- An event as it is seen. -/
def event (b : Event) : Event :=
  { b with id := k.number b.id, data := k.data b.data, recordedAt := k.stamp b.recordedAt }

/-- A store as it is seen. -/
def store (s : Store) : Store :=
  ⟨s.escrows.map k.escrow, s.conditions.map k.condition, s.events.map k.event⟩

/-- An answer as it is seen. -/
def answer : Answer → Answer
  | .escrow e => .escrow (k.escrow e)
  | .condition c => .condition (k.condition c)

/-- A change as it is seen. -/
def patch : Patch → Patch
  | .completion t => .completion (k.name t)
  | p => p

/-- A drafted event as it is seen. -/
def draft (d : EventDraft) : EventDraft := { d with data := k.data d.data }

/-- A view of the ledger as it is seen. -/
def view (r : RawState) : RawState :=
  { r with transaction := match r.transaction with
    | .text t => .text (k.name t)
    | j => j }

/-- A settlement as it is seen. -/
def settlement (q : Settlement) : Settlement := { q with transaction := k.name q.transaction }

end Sight

/-! ### The clear look -/

@[simp]
theorem clear_escrow (e : Escrow) : clear.escrow e = e := by
  simp only [escrow, clear, Option.map_id, id]

@[simp]
theorem clear_condition (c : Condition) : clear.condition c = c := by
  simp only [condition, clear, Option.map_id, id]

@[simp]
theorem clear_event (b : Event) : clear.event b = b := by
  obtain ⟨id, escrow, sequence, type, actor, old, new, data, address, at'⟩ := b
  cases data <;> rfl

@[simp]
theorem clear_store (s : Store) : clear.store s = s := by
  unfold store
  rw [List.map_id'' clear_escrow, List.map_id'' clear_condition, List.map_id'' clear_event]

@[simp]
theorem clear_answer (a : Answer) : clear.answer a = a := by
  cases a with
  | escrow e => exact congrArg Answer.escrow (clear_escrow e)
  | condition c => exact congrArg Answer.condition (clear_condition c)

@[simp]
theorem map_clear_answer (r : Except Failure Answer) : r.map clear.answer = r := by
  cases r with
  | ok a => exact congrArg Except.ok (clear_answer a)
  | error f => rfl

@[simp]
theorem clear_view (r : RawState) : clear.view r = r := by
  obtain ⟨status, amount, released, transaction, deadline⟩ := r
  cases transaction <;> rfl

@[simp]
theorem clear_settlement (q : Settlement) : clear.settlement q = q := rfl

end Look

/-! ## Writes -/

/-- Writes that look alike, log entries and announcements aside. -/
structure Writes.Alike (k : Look) (w w' : Writes) : Prop where
  met : w.met = w'.met
  patch : w.patch.map k.patch = w'.patch.map k.patch
  drafts : w.drafts.map k.draft = w'.drafts.map k.draft

section Writes

variable {k : Look} {w w' : Writes} {now now' : Moment}

theorem Look.patch_eq {p p' : Patch} (h : k.patch p = k.patch p') :
    p = p' ∨ ∃ t t', p = .completion t ∧ p' = .completion t' ∧ k.name t = k.name t' := by
  cases p with
  | completion t =>
    cases p' with
    | completion t' => exact .inr ⟨t, t', rfl, rfl, Patch.completion.inj h⟩
    | _ => cases h
  | _ =>
    cases p' with
    | completion t' => cases h
    | _ => exact .inl h

namespace Writes.Alike

theorem refl (k : Look) (w : Writes) : w.Alike k w := ⟨rfl, rfl, rfl⟩

theorem followedBy {a a' b b' : Writes} (ha : a.Alike k a') (hb : b.Alike k b') :
    (a.followedBy b).Alike k (a'.followedBy b') := by
  refine ⟨?_, ?_, ?_⟩
  · simp only [Writes.followedBy, ha.met, hb.met]
  · have hor : ∀ x y : Option Patch, (x <|> y).map k.patch = (x.map k.patch <|> y.map k.patch) := by
      intro x y
      cases x <;> rfl
    simp only [Writes.followedBy, hor, ha.patch, hb.patch]
  · simp only [Writes.followedBy, List.map_append, ha.drafts, hb.drafts]

theorem length_drafts (h : w.Alike k w') : w.drafts.length = w'.drafts.length := by
  simpa using congrArg List.length h.drafts

/-- Writes that look alike make of a record what looks alike. -/
theorem view (h : w.Alike k w') (hnow : k.stamp now = k.stamp now') (e : Escrow) :
    k.escrow (w.view now e) = k.escrow (w'.view now' e) := by
  have hpatch := h.patch
  unfold Writes.view
  cases hp : w.patch with
  | none =>
    rw [hp] at hpatch
    rw [Option.map_eq_none_iff.mp hpatch.symm]
  | some p =>
    rw [hp] at hpatch
    obtain ⟨p', hp', hpp⟩ := Option.map_eq_some_iff.mp hpatch.symm
    rw [hp']
    rcases Look.patch_eq hpp with rfl | ⟨t, t', rfl, rfl, ht⟩
    · simp only [Patch.applyAt, Look.escrow, hnow]
    · simp only [Patch.applyAt, Patch.apply, Look.escrow, hnow, Option.map_some, ht]

/-- So they do of a condition. -/
theorem onCondition (h : w.Alike k w') (hnow : k.stamp now = k.stamp now') (c : Condition) :
    k.condition (w.onCondition now c) = k.condition (w'.onCondition now' c) := by
  unfold Writes.onCondition
  rw [h.met]
  split
  next =>
    split
    next => simp only [Look.condition, Option.map_some, hnow]
    next => rfl
  next => rfl

end Writes.Alike

theorem Look.event_entered {d d' : EventDraft} (hd : k.draft d = k.draft d')
    (hnow : k.stamp now = k.stamp now') {n n' : Nat}
    (hn : k.number (Identifier.event n) = k.number (Identifier.event n')) (x : Identifier)
    (q : Nat) : k.event (d.entered now x n q) = k.event (d'.entered now' x n' q) := by
  obtain ⟨type, actor, old, new, data, address⟩ := d
  obtain ⟨type', actor', old', new', data', address'⟩ := d'
  simp only [draft, EventDraft.mk.injEq] at hd
  obtain ⟨rfl, rfl, rfl, rfl, hdata, rfl⟩ := hd
  simp only [EventDraft.entered, event, hdata, hnow, hn]

/-- The numbers of events from these on look alike. -/
def Look.Numbers (k : Look) (n n' : Nat) : Prop :=
  ∀ i, k.number (Identifier.event (n + i)) = k.number (Identifier.event (n' + i))

theorem Look.Numbers.succ {n n' : Nat} (h : k.Numbers n n') : k.Numbers (n + 1) (n' + 1) := by
  intro i
  have := h (1 + i)
  rwa [← Nat.add_assoc, ← Nat.add_assoc] at this

/-- Drafts that look alike are entered as events that look alike. -/
theorem Look.enterDrafts (hnow : k.stamp now = k.stamp now') (x : Identifier)
    {ds ds' : List EventDraft} {n n' : Nat} (h : ds.map k.draft = ds'.map k.draft)
    (hn : k.Numbers n n') (q : Nat) :
    (Custody.enterDrafts now x n q ds).map k.event =
      (Custody.enterDrafts now' x n' q ds').map k.event := by
  induction ds generalizing ds' n n' q with
  | nil =>
    rw [List.map_eq_nil_iff.mp h.symm]
    rfl
  | cons d ds ih =>
    cases ds' with
    | nil => cases h
    | cons d' ds' =>
      obtain ⟨hd, hds⟩ := List.cons.inj h
      have hfirst : k.number (Identifier.event n) = k.number (Identifier.event n') := hn 0
      rw [Custody.enterDrafts, Custody.enterDrafts, List.map_cons, List.map_cons,
        event_entered hd hnow hfirst, ih hds hn.succ]

namespace Store

theorem part_part (s : Store) (x : Identifier) : (s.part x).part x = s.part x := by
  simp only [part, List.filter_filter, Bool.and_self]

/-- Writes about an escrow need nothing else of the store. -/
theorem part_written_self (s : Store) (now : Moment) (x : Identifier) (n : Nat) (w : Writes) :
    (s.written now x n w).part x = (s.part x).written now x n w := by
  have hescrows : (s.escrows.map (w.onRecord now x)).filter (fun e => e.id = x) =
      (s.escrows.filter fun e => e.id = x).map (w.onRecord now x) := by
    rw [List.filter_map]
    simp only [Function.comp_def, Writes.onRecord_id]
  have hconditions : (s.conditions.map (w.onCondition now)).filter (fun c => c.escrow = x) =
      (s.conditions.filter fun c => c.escrow = x).map (w.onCondition now) :=
    conditionsOf_changed s now x x w
  -- Events are numbered within their escrow, so the rest of the store has no say in it.
  have hsequence : ((s.part x).changed now x w).nextSequence x =
      (s.changed now x w).nextSequence x := by
    rw [nextSequence_eq, nextSequence_eq]
    show (List.map _ ((s.part x).part x).events).foldl max 0 + 1 = _
    rw [part_part]
    rfl
  have hevents := logOf_enterAll (s.changed now x w) now x n w.drafts
  unfold written part
  rw [escrows_enterAll, conditions_enterAll]
  show Store.mk _ _ (logOf _ x) = _
  rw [hevents]
  show Store.mk ((s.escrows.map (w.onRecord now x)).filter _)
    ((s.conditions.map (w.onCondition now)).filter _) _ = _
  rw [hescrows, hconditions]
  refine Store.mk.injEq .. |>.mpr ⟨?_, ?_, ?_⟩
  · rw [escrows_enterAll]
    rfl
  · rw [conditions_enterAll]
    rfl
  · rw [events_enterAll_eq]
    exact congrArg (fun q => _ ++ Custody.enterDrafts now x n q w.drafts) hsequence.symm

end Store

/-- Writes that look alike make of the same store what looks alike. -/
theorem Writes.Alike.written (h : w.Alike k w') (hnow : k.stamp now = k.stamp now') (s : Store)
    (x : Identifier) {n n' : Nat} (hn : k.Numbers n n') :
    k.store (s.written now x n w) = k.store (s.written now' x n' w') := by
  have hrecord : ∀ e, k.escrow (w.onRecord now x e) = k.escrow (w'.onRecord now' x e) := by
    intro e
    unfold Writes.onRecord
    split
    next => exact h.view hnow e
    next => rfl
  unfold Look.store Store.written
  refine Store.mk.injEq .. |>.mpr ⟨?_, ?_, ?_⟩
  · rw [Store.escrows_enterAll, Store.escrows_enterAll]
    show List.map _ (s.escrows.map _) = List.map _ (s.escrows.map _)
    rw [List.map_map, List.map_map]
    exact List.map_congr_left fun e _ => hrecord e
  · rw [Store.conditions_enterAll, Store.conditions_enterAll]
    show List.map _ (s.conditions.map _) = List.map _ (s.conditions.map _)
    rw [List.map_map, List.map_map]
    exact List.map_congr_left fun c _ => h.onCondition hnow c
  · rw [Store.events_enterAll_eq, Store.events_enterAll_eq, List.map_append, List.map_append]
    exact congrArg _ (Look.enterDrafts hnow x h.drafts hn _)

end Writes

/-! ## Plans -/

/-- What a plan writes after a payment looks alike when the transactions do. -/
def Plan.TakesName (p : Plan) : Prop :=
  ∀ r paid, p.next = .payOut r paid →
    ∀ (k : Look) t t', k.name t = k.name t' → (paid t).Alike k (paid t')

namespace Plan

variable {p : Plan} {e : Escrow} {cs : List Condition} {by' : Caller}

theorem takesName_refuse (f : Failure) : (refuse f).TakesName := fun _ _ h => nomatch h

theorem takesName_ofWrites (x : Except Failure Writes) : (ofWrites x).TakesName := by
  cases x with
  | ok w => exact fun _ _ h => nomatch h
  | error f => exact takesName_refuse f

theorem TakesName.closing (h : p.TakesName) (entry : LogEntry) : (p.closing entry).TakesName := by
  obtain ⟨w, next⟩ := p
  cases next with
  | payOut r paid =>
    intro r' paid' hr k t t' ht
    cases hr
    exact (h r paid rfl k t t' ht).followedBy (.refl k _)
  | finish => exact fun _ _ hr => nomatch hr
  | refuse f => exact fun _ _ hr => nomatch hr

theorem takesName_payout (basis : ReleaseBasis) : (planPayout e basis by').TakesName := by
  unfold planPayout
  split
  next f _ => exact takesName_refuse f
  next =>
    split
    next => exact takesName_refuse _
    next b _ =>
      intro r paid hr k t t' ht
      cases hr
      refine ⟨rfl, ?_, ?_⟩
      · exact congrArg (fun t => some (Patch.completion t)) ht
      · simp only [paidWrites, List.map_cons, List.map_nil, Look.draft, Look.data, ht]

theorem takesName_release (manual : Bool) : (planRelease manual by' e cs).TakesName := by
  unfold planRelease
  split
  next => exact fun _ _ h => nomatch h
  next =>
    split
    next => exact takesName_refuse _
    next =>
      split
      next => exact takesName_refuse _
      next => exact takesName_payout _

theorem takesName_resolution (resolution : Except UnknownWord Resolution) (note : Option String) :
    (planResolution resolution note by' e).TakesName := by
  unfold planResolution
  split
  next => exact takesName_refuse _
  next =>
    split
    next => exact takesName_refuse _
    next r =>
      refine TakesName.closing ?_ _
      cases r with
      | release => exact takesName_payout _
      | refund => exact takesName_ofWrites _

theorem takesName_confirmation (k : Identifier) : (planConfirmation k by' e cs).TakesName := by
  unfold planConfirmation
  split
  next => exact takesName_refuse _
  next =>
    split
    next => exact fun _ _ h => nomatch h
    next =>
      split
      next => exact takesName_refuse _
      next =>
        simp only
        split
        next => exact fun r paid h => takesName_release false r paid h
        next => exact fun _ _ h => nomatch h

theorem takesName_task (t : Task) (now : Moment) : (t.plan now by' e cs).TakesName := by
  cases t with
  | update r => exact takesName_ofWrites _
  | activate x => exact takesName_ofWrites _
  | dispute r => exact takesName_ofWrites _
  | release manual => exact takesName_release manual
  | cancel r => exact takesName_ofWrites _
  | expire r n => exact takesName_ofWrites _
  | resolve r note => exact takesName_resolution r note

end Plan

/-- Conclusions that look alike. -/
structure Conclusion.Alike (k : Look) (c c' : Conclusion) : Prop where
  writes : c.writes.Alike k c'.writes
  verdict : c.verdict = c'.verdict
  asked : c.asked = c'.asked

/-- Ledgers whose answers to a request look alike. -/
def Look.Hears (k : Look) (ask ask' : SettleRequest → LedgerAnswer) (r : SettleRequest) : Prop :=
  (ask r).result.map k.name = (ask' r).result.map k.name

theorem Except.map_eq_cases {ε α β : Type} {f : α → β} {x y : Except ε α} (h : x.map f = y.map f) :
    (∃ a b, x = .ok a ∧ y = .ok b ∧ f a = f b) ∨ ∃ err, x = .error err ∧ y = .error err := by
  cases x with
  | ok a =>
    cases y with
    | ok b => exact .inl ⟨a, b, rfl, rfl, Except.ok.inj h⟩
    | error _ => cases h
  | error err =>
    cases y with
    | ok b => cases h
    | error _ =>
      cases h
      exact .inr ⟨err, rfl, rfl⟩

/-- A plan that hears what sounds alike comes to what looks alike. -/
theorem Plan.conclude_alike {k : Look} {p : Plan} {e : Escrow} (hp : p.AsksFor e)
    (hn : p.TakesName) {ask ask' : SettleRequest → LedgerAnswer}
    (hask : ∀ r, r.escrow = e.id → k.Hears ask ask' r) :
    (p.conclude ask).Alike k (p.conclude ask') := by
  have silent : ∀ es es' : List LogEntry,
      Writes.Alike k { log := es } { log := es' } := fun _ _ => ⟨rfl, rfl, rfl⟩
  unfold conclude
  cases hnext : p.next with
  | finish => exact ⟨.refl k _, rfl, rfl⟩
  | refuse f => exact ⟨.refl k _, rfl, rfl⟩
  | payOut r paid =>
    have htold := (Writes.Alike.refl k p.writes).followedBy (silent (ask r).log (ask' r).log)
    rcases Except.map_eq_cases (hask r (hp r paid hnext).1) with ⟨t, t', ht, ht', hname⟩ | ⟨f, hf, hf'⟩
    · simp only [ht, ht']
      exact ⟨htold.followedBy (hn r paid hnext k t t' hname), rfl, rfl⟩
    · simp only [hf, hf']
      split
      next h => cases h
      next => exact ⟨htold.followedBy (.refl k _), rfl, rfl⟩
      next => exact ⟨htold, rfl, rfl⟩

end Custody

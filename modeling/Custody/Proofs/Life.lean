import Mathlib.Data.List.Induction
import Custody.Proofs.Stamp

/-!
# The life of an escrow

A store holds many escrows, and an operation writes to one of them. Seen from there, a run is a
life: the escrow is created, and then deeds are done on it, one after another. `Life` tells it
with the record, its conditions and its log together, and without a store; what is true of every
life is an induction with one case for the creation and one for a deed.

> `Effect.turned`: an operation leaves an escrow alone, or does one deed on it.
> `Service.lives`: every escrow of a run has a life, which began with a creation in that run.
> `eventsOf_eq_logOf`: its log is read back as it stands in the store.
-/

namespace Custody

/-! ## Events in the log of an escrow -/

/-- The event that a draft becomes as the `k`-th of a log; `n` numbers it among all events. -/
def EventDraft.entered (d : EventDraft) (now : Moment) (escrow : Identifier) (n k : Nat) : Event :=
  { id := Identifier.event n, escrow := escrow, sequence := k, type := d.type, actor := d.actor
    oldStatus := d.oldStatus.map word, newStatus := d.newStatus.map word, data := d.data
    address := d.address, recordedAt := now }

/-- The events that drafts become one after another, from the `k`-th of a log on. -/
def enterDrafts (now : Moment) (escrow : Identifier) : Nat → Nat → List EventDraft → List Event
  | _, _, [] => []
  | n, k, d :: ds => d.entered now escrow n k :: enterDrafts now escrow (n + 1) (k + 1) ds

theorem mem_enterDrafts {now : Moment} {escrow : Identifier} {ds : List EventDraft} {n k : Nat}
    {b : Event} (h : b ∈ enterDrafts now escrow n k ds) :
    ∃ d ∈ ds, ∃ i j, b = d.entered now escrow i j := by
  induction ds generalizing n k with
  | nil => cases h
  | cons d ds ih =>
    rcases List.mem_cons.mp h with rfl | h
    · exact ⟨d, List.mem_cons_self .., n, k, rfl⟩
    · obtain ⟨d', hd', hb⟩ := ih h
      exact ⟨d', List.mem_cons_of_mem _ hd', hb⟩

theorem length_enterDrafts (now : Moment) (escrow : Identifier) (n k : Nat) (ds : List EventDraft) :
    (enterDrafts now escrow n k ds).length = ds.length := by
  induction ds generalizing n k with
  | nil => rfl
  | cons d ds ih => rw [enterDrafts, List.length_cons, ih, List.length_cons]

/-- As many events as drafts have what a draft and its event have together. -/
theorem length_filter_enterDrafts {now : Moment} {escrow : Identifier} {p : EventDraft → Bool}
    {q : Event → Bool} (h : ∀ d i j, q (d.entered now escrow i j) = p d) (n k : Nat)
    (ds : List EventDraft) :
    ((enterDrafts now escrow n k ds).filter q).length = (ds.filter p).length := by
  induction ds generalizing n k with
  | nil => rfl
  | cons d ds ih =>
    rw [enterDrafts, List.filter_cons, List.filter_cons, h]
    cases p d with
    | true => exact congrArg (· + 1) (ih ..)
    | false => exact ih ..

/-- The first numbers in their order end with the largest. -/
theorem foldl_max_range' (n : Nat) : (List.range' 1 n).foldl max 0 = n := by
  induction n with
  | zero => rfl
  | succ n ih =>
    rw [List.range'_1_concat, List.foldl_append, ih]
    show max n (1 + n) = n + 1
    omega

namespace Store

/-- The events of an escrow, as they stand in the store. -/
def logOf (s : Store) (x : Identifier) : List Event := s.events.filter fun b => b.escrow = x

theorem mem_logOf {s : Store} {x : Identifier} {b : Event} :
    b ∈ s.logOf x ↔ b ∈ s.events ∧ b.escrow = x := by
  simp [logOf, List.mem_filter]

theorem nextSequence_eq (s : Store) (x : Identifier) :
    s.nextSequence x = ((s.logOf x).map (·.sequence)).foldl max 0 + 1 := rfl

/-- The next number goes up by one with every event. -/
theorem nextSequence_enter (s : Store) (now : Moment) (x : Identifier) (n : Nat) (d : EventDraft) :
    (s.enter now x n d).nextSequence x = s.nextSequence x + 1 := by
  have hlog : (s.enter now x n d).logOf x =
      s.logOf x ++ [d.entered now x n (s.nextSequence x)] := by
    rw [logOf, events_enter, List.filter_append]
    simp [logOf, EventDraft.entered]
  rw [nextSequence_eq, hlog, List.map_append, List.foldl_append]
  show max _ (s.nextSequence x) + 1 = s.nextSequence x + 1
  rw [nextSequence_eq]
  omega

theorem events_enterAll_eq (s : Store) (now : Moment) (x : Identifier) (n : Nat)
    (ds : List EventDraft) :
    (s.enterAll now x n ds).events =
      s.events ++ enterDrafts now x n (s.nextSequence x) ds := by
  induction ds generalizing s n with
  | nil => simp [enterAll, enterDrafts]
  | cons d ds ih =>
    rw [enterAll, ih, nextSequence_enter, events_enter, enterDrafts, List.append_assoc]
    rfl

/-- Drafts are entered into the log of their escrow. -/
theorem logOf_enterAll (s : Store) (now : Moment) (x : Identifier) (n : Nat)
    (ds : List EventDraft) :
    (s.enterAll now x n ds).logOf x = s.logOf x ++ enterDrafts now x n (s.nextSequence x) ds := by
  rw [logOf, events_enterAll_eq, List.filter_append]
  congr 1
  refine List.filter_eq_self.mpr fun b hb => ?_
  obtain ⟨d, -, i, j, rfl⟩ := mem_enterDrafts hb
  exact decide_eq_true rfl

/-- A log that is numbered from 1 on goes on with the number behind its length. -/
theorem nextSequence_of_numbered {s : Store} {x : Identifier}
    (h : (s.logOf x).map (·.sequence) = List.range' 1 (s.logOf x).length) :
    s.nextSequence x = (s.logOf x).length + 1 := by
  rw [nextSequence_eq, h, foldl_max_range']

/-- A log that is numbered from 1 on is read back as it stands. -/
theorem eventsOf_of_numbered {s : Store} {x : Identifier}
    (h : (s.logOf x).map (·.sequence) = List.range' 1 (s.logOf x).length) :
    s.eventsOf x = s.logOf x := by
  have hsorted : ((s.logOf x).map (·.sequence)).Pairwise (· ≤ ·) := by
    rw [h]
    exact List.pairwise_le_range'
  rw [List.pairwise_map] at hsorted
  exact List.mergeSort_of_pairwise (hsorted.imp decide_eq_true)

end Store

/-! ## One escrow of many -/

/-- What becomes of an escrow while somebody does an operation: nothing, or one deed. -/
inductive Turned (v u : Service) (by' : Caller) (e : Escrow) : Escrow → Prop
  | untouched (hc : u.store.conditionsOf e.id = v.store.conditionsOf e.id)
      (hl : u.store.logOf e.id = v.store.logOf e.id) : Turned v u by' e e
  | deed {w : Writes} {paid : Option (SettleRequest × String)} {n : Nat}
      (hd : Deed by' e.loaded (v.store.conditionsOf e.id) w paid)
      (hc : u.store.conditionsOf e.id =
        (v.store.conditionsOf e.id).map (w.onCondition v.now))
      (hl : u.store.logOf e.id = v.store.logOf e.id ++
        enterDrafts v.now e.id n (v.store.nextSequence e.id) w.drafts) :
      Turned v u by' e (w.view v.now e)

section Turns

variable {v u : Service} {by' : Caller}

/-- A new escrow leaves what the store has about another alone. -/
theorem Store.part_add_of_ne {s : Store} {e : Escrow} {cs : List Condition} {x : Identifier}
    (hcs : ∀ c ∈ cs, c.escrow = e.id) (hx : x ≠ e.id) (now : Moment) (n : Nat) (d : EventDraft) :
    ((s.add e cs).enter now e.id n d).part x = s.part x := by
  have hcond : (s.conditions ++ cs).filter (fun c => c.escrow = x) =
      s.conditions.filter fun c => c.escrow = x := by
    rw [List.filter_append, List.append_right_eq_self, List.filter_eq_nil_iff]
    intro c hc hcx
    exact hx ((of_decide_eq_true hcx).symm.trans (hcs c hc))
  have hesc : (s.escrows ++ [e]).filter (fun e => e.id = x) =
      s.escrows.filter fun e => e.id = x := by
    rw [List.filter_append, List.filter_cons_of_neg (by simpa using Ne.symm hx), List.filter_nil,
      List.append_nil]
  have hev := Store.filter_enterAll_of_ne hx now [d] (s.add e cs) n
  show Store.mk _ _ _ = Store.mk _ _ _
  rw [← hcond, ← hesc]
  exact congrArg _ hev

/-- Of an escrow that was not there the store has what was added with it. -/
theorem Store.add_of_fresh {s : Store} {e : Escrow} {cs : List Condition}
    (hcs : ∀ c ∈ cs, c.escrow = e.id) (hs : ∀ c ∈ s.conditions, c.escrow ≠ e.id)
    (hb : ∀ b ∈ s.events, b.escrow ≠ e.id) (now : Moment) (n : Nat) (d : EventDraft) :
    ((s.add e cs).enter now e.id n d).conditionsOf e.id = cs ∧
      ((s.add e cs).enter now e.id n d).logOf e.id = [d.entered now e.id n 1] := by
  have hlog : (s.add e cs).logOf e.id = [] :=
    List.filter_eq_nil_iff.mpr fun b hmem => by simpa using hb b hmem
  constructor
  · show (s.conditions ++ cs).filter (fun c => c.escrow = e.id) = cs
    rw [List.filter_append, List.filter_eq_nil_iff.mpr fun c hc => by simpa using hs c hc,
      List.nil_append, List.filter_eq_self.mpr fun c hc => by simpa using hcs c hc]
  · have hnew := Store.logOf_enterAll (s.add e cs) now e.id n [d]
    rw [Store.nextSequence_eq, hlog] at hnew
    exact hnew

/-- An operation leaves an escrow that was there alone, or does one deed on it. -/
theorem Effect.turned (hk : Kept v.store v.counters) (hu : Effect v by' u) {e' : Escrow}
    (he : e' ∈ u.store.escrows) (hid : e'.id ∈ v.store.escrows.map (·.id)) :
    ∃ e ∈ v.store.escrows, e.id = e'.id ∧ Turned v u by' e e' := by
  have same : u.store.part e'.id = v.store.part e'.id → Turned v u by' e' e' :=
    fun h => .untouched (congrArg Store.conditions h) (congrArg Store.events h)
  cases hu with
  | nothing => exact ⟨e', he, rfl, same rfl⟩
  | @creation n ps t asset d cs hn hf hd hc =>
    -- A creation takes a fresh identifier, so an escrow that was there is another one.
    have hne : e'.id ≠ d.id := by
      intro h
      rw [h, hd] at hid
      exact hk.fresh hid
    rcases List.mem_append.mp he with hmem | hnew
    · refine ⟨e', hmem, rfl, same (Store.part_add_of_ne (fun c hcm => ?_) hne _ _ _)⟩
      subst hc
      exact (mem_numberConditions hcm).1
    · exact absurd (congrArg Escrow.id (List.mem_singleton.mp hnew)) hne
  | @deed d w paid hd hdeed ha =>
    rw [Store.escrows_enterAll] at he
    obtain ⟨e, hmem, rfl⟩ := List.mem_map.mp he
    rw [Writes.onRecord_id] at same ⊢
    refine ⟨e, hmem, rfl, ?_⟩
    by_cases hed : e.id = d.id
    · -- The record of the deed is the only one with its identifier.
      have hst := (Store.stored?_eq_some_iff hk.distinct).mpr hmem
      rw [hed, hd] at hst
      cases hst
      rw [Writes.onRecord, if_pos rfl]
      refine .deed hdeed ?_ (Store.logOf_enterAll ..)
      rw [Store.conditionsOf, Store.conditions_enterAll]
      exact Store.conditionsOf_changed ..
    · rw [Writes.onRecord, if_neg hed] at same ⊢
      exact same (Store.part_written_deed hk.conditionsDistinct hdeed hed _ _)

/-- An operation takes no escrow away. -/
theorem Effect.exists_mem (h : Effect v by' u) {e : Escrow} (he : e ∈ v.store.escrows) :
    ∃ e' ∈ u.store.escrows, e'.id = e.id := by
  cases h with
  | nothing => exact ⟨e, he, rfl⟩
  | creation => exact ⟨e, List.mem_append_left _ he, rfl⟩
  | deed =>
    rw [Store.escrows_enterAll]
    exact ⟨_, List.mem_map_of_mem he, Writes.onRecord_id ..⟩

/-- Of every escrow that was there something has become. -/
theorem Effect.exists_turned (hk : Kept v.store v.counters) (hu : Effect v by' u) {e : Escrow}
    (he : e ∈ v.store.escrows) :
    ∃ e' ∈ u.store.escrows, e'.id = e.id ∧ Turned v u by' e e' := by
  obtain ⟨e', he', hid⟩ := hu.exists_mem he
  obtain ⟨d, hd, hde, hturned⟩ := hu.turned hk he' (hid ▸ List.mem_map_of_mem he)
  obtain rfl : d = e := List.inj_on_of_nodup_map hk.distinct hd he (hde.trans hid)
  exact ⟨e', he', hid, hturned⟩

end Turns

/-! ## Lives -/

/-- The life of an escrow that a caller created on some terms, up to a record with its conditions
and its log. -/
inductive Life (by' : Caller) (n : NewEscrow) : Escrow → List Condition → List Event → Prop
  | created {ps : List Party} {t : EscrowType} {asset : String} {x : Identifier} {now : Moment}
      {k i : Nat} {e : Escrow} {cs : List Condition} (hn : n.define by'.user = .ok (ps, t))
      (hf : (n.row by'.user asset t).fault? = none)
      (he : e = n.record x by'.user asset t ps now)
      (hc : cs = numberConditions x k n.conditions) :
      Life by' n e cs [(creationDraft e cs.length by').entered now x i 1]
  | deed {e : Escrow} {cs : List Condition} {es : List Event} {who : Caller} {w : Writes}
      {paid : Option (SettleRequest × String)} (h : Life by' n e cs es)
      (hd : Deed who e.loaded cs w paid) (now : Moment) (i : Nat) :
      Life by' n (w.view now e) (cs.map (w.onCondition now))
        (es ++ enterDrafts now e.id i (es.length + 1) w.drafts)

section Lives

variable {by' : Caller} {n : NewEscrow} {e : Escrow} {cs : List Condition} {es : List Event}

theorem sequence_enterDrafts (now : Moment) (x : Identifier) (i k : Nat) (ds : List EventDraft) :
    (enterDrafts now x i k ds).map (·.sequence) = List.range' k ds.length := by
  induction ds generalizing i k with
  | nil => rfl
  | cons d ds ih =>
    rw [enterDrafts, List.map_cons, ih, List.length_cons, List.range'_succ]
    rfl

/-- The events of a life are numbered from 1 on. -/
theorem Life.numbered (h : Life by' n e cs es) :
    es.map (·.sequence) = List.range' 1 es.length := by
  induction h with
  | created => rfl
  | deed h hd now i ih =>
    rw [List.map_append, ih, sequence_enterDrafts, List.length_append, length_enterDrafts,
      Nat.add_comm _ 1, List.range'_append_1]

/-- An escrow goes on living whatever becomes of it. -/
theorem Life.turned {v u : Service} {who : Caller} {e' : Escrow}
    (h : Life by' n e (v.store.conditionsOf e.id) (v.store.logOf e.id))
    (ht : Turned v u who e e') :
    Life by' n e' (u.store.conditionsOf e'.id) (u.store.logOf e'.id) := by
  cases ht with
  | untouched hc hl => rw [hc, hl]; exact h
  | @deed w paid i hd hc hl =>
    -- The numbers have no gap, so the next one is right behind the length of the log.
    rw [Writes.view_id, hc, hl, Store.nextSequence_of_numbered h.numbered]
    exact h.deed hd v.now i

end Lives

/-! ## Creations of a run -/

/-- Every event of a run is about an escrow that is there. -/
theorem Reachable.logged {v : Service} (h : Reachable v) :
    ∀ b ∈ v.store.events, ∃ e ∈ v.store.escrows, e.id = b.escrow := by
  refine h.invariant (I := fun v => ∀ b ∈ v.store.events, ∃ e ∈ v.store.escrows, e.id = b.escrow)
    ?start ?effect ?other
  case start =>
    intro clock settings dispatcher lease b hb
    cases hb
  case effect =>
    intro v u by' hv ih hu b hb
    cases hu with
    | nothing => exact ih b hb
    | @creation n ps t asset e cs hn hf he hc =>
      rcases List.mem_append.mp hb with hb | hb
      · obtain ⟨d, hd, hdb⟩ := ih b hb
        exact ⟨d, List.mem_append_left _ hd, hdb⟩
      · rw [List.mem_singleton.mp hb]
        exact ⟨e, List.mem_append_right _ (List.mem_singleton.mpr rfl), rfl⟩
    | @deed e w paid he hd ha =>
      -- A deed removes no record and changes no identifier.
      have key : ∀ x, (∃ d ∈ v.store.escrows, d.id = x) →
          ∃ d ∈ ((v.store.changed v.now e.id w).enterAll v.now e.id (v.counters.events + 1)
            w.drafts).escrows, d.id = x := by
        rintro x ⟨d, hd, rfl⟩
        rw [Store.escrows_enterAll]
        exact ⟨_, List.mem_map_of_mem hd, Writes.onRecord_id ..⟩
      rw [Store.events_enterAll_eq] at hb
      rcases List.mem_append.mp hb with hb | hb
      · exact key _ (ih b hb)
      · obtain ⟨d, -, i, j, rfl⟩ := mem_enterDrafts hb
        exact key _ ⟨e, List.mem_of_find?_eq_some he, rfl⟩
  case other =>
    intro v u hstore _ _ ih
    rw [hstore]
    exact ih

/-- Neither conditions nor events name an escrow that is not there. -/
theorem Reachable.unnamed {v : Service} (h : Reachable v) {x : Identifier}
    (hx : x ∉ v.store.escrows.map (·.id)) :
    (∀ c ∈ v.store.conditions, c.escrow ≠ x) ∧ ∀ b ∈ v.store.events, b.escrow ≠ x := by
  constructor
  · rintro c hc rfl
    obtain ⟨d, hd, hdc⟩ := h.kept.owned c hc
    exact hx (List.mem_map.mpr ⟨d, hd, hdc⟩)
  · rintro b hb rfl
    obtain ⟨d, hd, hdb⟩ := h.logged b hb
    exact hx (List.mem_map.mpr ⟨d, hd, hdb⟩)

namespace Service

variable {v : Service} {by' : Caller} {op : Operation}

/-- Only a creation numbers an escrow. -/
theorem escrows_counters_perform (h : ∀ n, op ≠ .create n) :
    (v.perform by' op).2.1.counters.escrows = v.counters.escrows := by
  -- Work under a lock leaves that number alone, whatever comes of it.
  have work : ∀ (x : Identifier) (plan : Escrow → List Condition → Plan),
      (underLock v.surroundings x (carryOut v.surroundings x plan) v.store
        v.counters).counters.escrows = v.counters.escrows := by
    intro x plan
    unfold underLock
    split
    next => rfl
    next =>
      simp only
      split
      next => rfl
      next =>
        unfold carryOut
        split
        next => rfl
        next =>
          simp only
          split
          next => rfl
          next => split <;> rfl
  cases op with
  | create n => exact absurd rfl (h n)
  | task x t => exact work ..
  | confirm k =>
    simp only [perform, performSeeing, Operation.run, confirmCondition]
    split
    next => rfl
    next =>
      split
      next => rfl
      next =>
        split
        next => rfl
        next => exact work ..

/-- Every operation but a creation leaves the identifiers as they were. -/
theorem id_mem_of_perform (hv : Reachable v) (h : ∀ n, op ≠ .create n) {e : Escrow}
    (he : e ∈ (v.perform by' op).2.1.store.escrows) : e.id ∈ v.store.escrows.map (·.id) := by
  have hnum : (v.perform by' op).2.1.counters.escrows = v.counters.escrows :=
    escrows_counters_perform h
  have heff := perform_effect hv.kept.sound by' op
  generalize (v.perform by' op).2.1 = u at he hnum heff
  cases heff with
  | nothing => exact List.mem_map_of_mem he
  | creation =>
    -- A creation would have counted an escrow.
    simp at hnum
  | deed =>
    rw [Store.escrows_enterAll] at he
    obtain ⟨d, hd, rfl⟩ := List.mem_map.mp he
    exact List.mem_map.mpr ⟨d, hd, (Writes.onRecord_id ..).symm⟩

/-- What a creation that goes through leaves in the store. -/
theorem createEscrow_ok {env : Surroundings} {n : NewEscrow} {s : Store} {c : Counters} {e : Escrow}
    (h : (createEscrow env by' n s c).result = .ok e) :
    ∃ ps t asset cs, n.define by'.user = .ok (ps, t) ∧ (n.row by'.user asset t).fault? = none ∧
      e = n.record (Identifier.escrow (c.escrows + 1)) by'.user asset t ps env.now ∧
      cs = numberConditions e.id (c.conditions + 1) n.conditions ∧
      (createEscrow env by' n s c).store =
        (s.add e cs).enter env.now e.id (c.events + 1) (creationDraft e cs.length by') := by
  unfold createEscrow at h ⊢
  cases hn : n.define by'.user with
  | error f =>
    rw [hn] at h
    cases h
  | ok d =>
    obtain ⟨ps, t⟩ := d
    simp only [hn] at h ⊢
    cases hdb : env.database with
    | some f =>
      simp only [hdb] at h
      cases h
    | none =>
      simp only [hdb] at h ⊢
      cases hf : (n.row by'.user (n.assetOr env.defaultAsset) t).fault? with
      | some f =>
        simp only [hf] at h
        cases h
      | none =>
        simp only [hf] at h ⊢
        cases h
        exact ⟨ps, t, _, _, rfl, hf, rfl, rfl, rfl⟩

/-- The life of an escrow begins in the store that its creation leaves. -/
theorem life_of_created (hv : Reachable v) {n : NewEscrow} {e : Escrow}
    (h : (createEscrow v.surroundings by' n v.store v.counters).result = .ok e)
    (hid : e.id ∉ v.store.escrows.map (·.id)) :
    Life by' n e ((createEscrow v.surroundings by' n v.store v.counters).store.conditionsOf e.id)
      ((createEscrow v.surroundings by' n v.store v.counters).store.logOf e.id) := by
  obtain ⟨ps, t, asset, cs, hn, hf, he, hcs, hs⟩ := createEscrow_ok h
  obtain ⟨hconditions, hevents⟩ := hv.unnamed hid
  have hown : ∀ c ∈ cs, c.escrow = e.id := by
    intro c hc
    rw [hcs] at hc
    exact (mem_numberConditions hc).1
  obtain ⟨hof, hlog⟩ := Store.add_of_fresh hown hconditions hevents v.surroundings.now
    (v.counters.events + 1) (creationDraft e cs.length by')
  have hx : e.id = Identifier.escrow (v.counters.escrows + 1) := congrArg Escrow.id he
  rw [hs, hof, hlog]
  rw [hx] at hcs ⊢
  exact .created hn hf he hcs

/-- An escrow that is new after an operation was created by it, and its life begins there. -/
theorem created (hv : Reachable v) {e : Escrow} (he : e ∈ (v.perform by' op).2.1.store.escrows)
    (hid : e.id ∉ v.store.escrows.map (·.id)) :
    ∃ n, op = .create n ∧ (v.perform by' op).1 = .ok (.escrow e) ∧
      Life by' n e ((v.perform by' op).2.1.store.conditionsOf e.id)
        ((v.perform by' op).2.1.store.logOf e.id) := by
  have hnew : e ∉ v.store.escrows := fun h => hid (List.mem_map_of_mem h)
  by_cases hop : ∃ n, op = .create n
  · obtain ⟨n, rfl⟩ := hop
    have hanswer : (v.perform by' (.create n)).1 =
        (createEscrow v.surroundings by' n v.store v.counters).result.map Answer.escrow := rfl
    have he : e ∈ (createEscrow v.surroundings by' n v.store v.counters).store.escrows := he
    rw [hanswer]
    cases hr : (createEscrow v.surroundings by' n v.store v.counters).result with
    | error f =>
      rw [createEscrow_store_of_error hr] at he
      exact absurd he hnew
    | ok d =>
      obtain ⟨-, -, -, cs, -, -, -, -, hs⟩ := createEscrow_ok hr
      rw [hs] at he
      have hd := (List.mem_append.mp he).resolve_left hnew
      rw [← List.mem_singleton.mp hd] at hr ⊢
      exact ⟨n, rfl, rfl, life_of_created hv hr hid⟩
  · exact absurd (id_mem_of_perform hv (fun n h => hop ⟨n, h⟩) he) hid

end Service

/-! ## Runs -/

/-- During happenings that began at a service, a caller asked for an operation; `v` is the service
as it was then. -/
def Did (v₀ : Service) (hs : List Happening) (v : Service) (by' : Caller) (op : Operation) :
    Prop :=
  ∃ pre post, hs = pre ++ .operation by' op :: post ∧ v = v₀.run pre

section Runs

variable {v₀ v : Service} {hs : List Happening} {by' : Caller} {op : Operation}

theorem Did.append (h : Did v₀ hs v by' op) (more : List Happening) :
    Did v₀ (hs ++ more) v by' op := by
  obtain ⟨pre, post, rfl, hv⟩ := h
  exact ⟨pre, post ++ more, by simp, hv⟩

theorem Did.last (v₀ : Service) (hs : List Happening) (by' : Caller) (op : Operation) :
    Did v₀ (hs ++ [.operation by' op]) (v₀.run hs) by' op :=
  ⟨hs, [], rfl, rfl⟩

theorem Service.run_concat (v₀ : Service) (hs : List Happening) (a : Happening) :
    v₀.run (hs ++ [a]) = (v₀.run hs).after a :=
  List.foldl_concat ..

/-- What is reached is reached by happenings, one after another. -/
theorem Reachable.exists_run (h : Reachable v) :
    ∃ clock settings dispatcher lease hs,
      v = (Service.start clock settings dispatcher lease).run hs := by
  induction h with
  | start clock settings dispatcher lease => exact ⟨clock, settings, dispatcher, lease, [], rfl⟩
  | @step v a hv ih =>
    obtain ⟨clock, settings, dispatcher, lease, hs, rfl⟩ := ih
    exact ⟨clock, settings, dispatcher, lease, hs ++ [a], (Service.run_concat ..).symm⟩

variable {clock : Int} {settings : Settings} {dispatcher : Dispatcher} {lease : Option Lease}

/-- Every escrow of a run was created in it, and has had a life since. -/
theorem Service.lives {e : Escrow}
    (he : e ∈ ((start clock settings dispatcher lease).run hs).store.escrows) :
    ∃ v by' n e₀, Did (start clock settings dispatcher lease) hs v by' (.create n) ∧
      (v.perform by' (.create n)).1 = .ok (.escrow e₀) ∧ e₀.id = e.id ∧
      Life by' n e
        (((start clock settings dispatcher lease).run hs).store.conditionsOf e.id)
        (((start clock settings dispatcher lease).run hs).store.logOf e.id) := by
  induction hs using List.reverseRec generalizing e with
  | nil => cases he
  | append_singleton hs a ih =>
    rw [run_concat] at he ⊢
    have hv := (Reachable.start clock settings dispatcher lease).run hs
    -- What does not touch the store leaves all lives as they were.
    have same : ((start clock settings dispatcher lease).run hs).store =
        (((start clock settings dispatcher lease).run hs).after a).store →
        ∃ v by' n e₀, Did (start clock settings dispatcher lease) (hs ++ [a]) v by' (.create n) ∧
          (v.perform by' (.create n)).1 = .ok (.escrow e₀) ∧ e₀.id = e.id ∧
          Life by' n e
            ((((start clock settings dispatcher lease).run hs).after a).store.conditionsOf e.id)
            ((((start clock settings dispatcher lease).run hs).after a).store.logOf e.id) := by
      intro hstore
      rw [← hstore] at he ⊢
      obtain ⟨v, by', n, e₀, hdid, hanswer, hid, hl⟩ := ih he
      exact ⟨v, by', n, e₀, hdid.append [a], hanswer, hid, hl⟩
    cases a with
    | operation by' op =>
      -- The escrow was there before, and has lived on, or the operation is its creation.
      generalize hrun : (start clock settings dispatcher lease).run hs = v at he hv ih ⊢
      by_cases hid : e.id ∈ v.store.escrows.map (·.id)
      · obtain ⟨d, hd, hde, ht⟩ := (perform_effect hv.kept.sound by' op).turned hv.kept he hid
        obtain ⟨u, who, n, e₀, hdid, hanswer, hid, hl⟩ := ih hd
        exact ⟨u, who, n, e₀, hdid.append _, hanswer, hid.trans hde, hl.turned ht⟩
      · obtain ⟨n, rfl, hanswer, hl⟩ := created hv he hid
        exact ⟨v, by', n, e, hrun ▸ Did.last .., hanswer, rfl, hl⟩
    | _ => exact same rfl

/-- The log of an escrow is read back as it stands in the store. -/
theorem Reachable.eventsOf_eq_logOf (h : Reachable v) (x : Identifier) :
    v.store.eventsOf x = v.store.logOf x := by
  by_cases hid : x ∈ v.store.escrows.map (·.id)
  · obtain ⟨e, he, rfl⟩ := List.mem_map.mp hid
    obtain ⟨clock, settings, dispatcher, lease, hs, rfl⟩ := h.exists_run
    obtain ⟨_, _, _, _, _, _, _, hl⟩ := Service.lives he
    exact Store.eventsOf_of_numbered hl.numbered
  · -- Every event is about an escrow that is there, so there are none about others.
    have hnil : v.store.logOf x = [] := by
      refine List.filter_eq_nil_iff.mpr fun b hb hbx => ?_
      exact (h.unnamed hid).2 b hb (of_decide_eq_true hbx)
    refine Store.eventsOf_of_numbered ?_
    rw [hnil]
    rfl

/-- Every escrow of a service that a run leads to has a life. -/
theorem Reachable.life (h : Reachable v) {e : Escrow} (he : e ∈ v.store.escrows) :
    ∃ by' n, Life by' n e (v.store.conditionsOf e.id) (v.store.eventsOf e.id) := by
  obtain ⟨clock, settings, dispatcher, lease, hs, rfl⟩ := h.exists_run
  obtain ⟨_, by', n, _, _, _, _, hl⟩ := Service.lives he
  rw [h.eventsOf_eq_logOf]
  exact ⟨by', n, hl⟩

end Runs

end Custody

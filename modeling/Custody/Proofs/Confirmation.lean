import Custody.Proofs.Run

/-!
# Confirmations in the audit log

The audit log has one event of its confirmation for every condition that is met, and none for the
others. A condition that was met stays met, and a confirmation that goes through leaves it so.

> `Reachable.tallied`: the log and the conditions agree after every run.
> `Service.met_of_confirmed`: a confirmation that goes through leaves its condition met.
-/

namespace Custody

/-- Whether an event tells that a condition was met. -/
def EventData.confirms (k : Identifier) : EventData → Bool
  | .conditionMet c _ => c = k
  | _ => false

namespace Store

/-- The events in the log of an escrow that tell that a condition was met. -/
def confirmations (s : Store) (x k : Identifier) : List Event :=
  (s.events.filter fun v => v.escrow = x).filter fun v => v.data.confirms k

/-- Whether a condition is there and met. -/
def Met (s : Store) (k : Identifier) : Prop := ∃ c ∈ s.conditions, c.id = k ∧ c.met = true

/-- The log tells once that a condition was met, when it was, and it tells so of no condition that
is not there. -/
structure Tallied (s : Store) : Prop where
  once : ∀ c ∈ s.conditions, (s.confirmations c.escrow c.id).length = if c.met then 1 else 0
  known : ∀ v ∈ s.events, ∀ k, v.data.confirms k = true → k ∈ s.conditions.map (·.id)

end Store

/-! ## Confirmations of a deed -/

section Deeds

variable {by' : Caller} {e : Escrow} {cs : List Condition} {w : Writes}
  {paid : Option (SettleRequest × String)}

/-- A deed tells of a confirmation once, when it makes one. -/
theorem Deed.confirms (h : Deed by' e cs w paid) (k : Identifier) :
    (w.drafts.filter fun d => d.data.confirms k).length =
      if w.met.any (fun m => m.1 = k) then 1 else 0 := by
  cases h with
  | sameTerms _ hw | releasedBefore _ hw | metBefore _ _ hw | terms _ _ hw | activation _ hw
  | dispute _ hw | cancellation _ hw | expiry _ _ _ _ hw | refund _ hw | decided _ _ hw
  | release _ _ _ _ hw =>
    rw [hw.met_eq, hw.drafts_eq]
    rfl
  | @confirmation c _ _ _ _ hw =>
    rw [hw.met_eq, hw.drafts_eq]
    by_cases hk : c.id = k <;> simp [confirmationDraft, EventData.confirms, hk]
  | @lastConfirmation c _ _ _ _ _ _ _ _ _ hw =>
    rw [hw.met_eq, hw.drafts_eq]
    by_cases hk : c.id = k <;>
      simp [confirmationDraft, paymentDraft, EventData.confirms, hk]

/-- What writes make of a condition is met when it was met before or is met now. -/
theorem Writes.onCondition_met (w : Writes) (now : Moment) (c : Condition) :
    (w.onCondition now c).met = (c.met || w.met.any fun m => m.1 = c.id) := by
  unfold onCondition
  cases w.met with
  | none => simp
  | some m =>
    by_cases hc : c.id = m.1
    · simp [hc]
    · simp [hc, Ne.symm hc]

end Deeds

/-! ## The log of an escrow -/

namespace Store

/-- The confirmations in a log with drafts at its end. -/
theorem length_confirmations_enterAll (now : Moment) (x y k : Identifier) (ds : List EventDraft)
    (s : Store) (n : Nat) :
    ((s.enterAll now x n ds).confirmations y k).length =
      (s.confirmations y k).length +
        if x = y then (ds.filter fun d => d.data.confirms k).length else 0 := by
  induction ds generalizing s n with
  | nil => simp [enterAll]
  | cons d ds ih =>
    rw [enterAll, ih]
    have hone : ((s.enter now x n d).confirmations y k).length =
        (s.confirmations y k).length + if x = y ∧ d.data.confirms k = true then 1 else 0 := by
      unfold confirmations
      rw [events_enter, List.filter_append, List.filter_append, List.length_append]
      by_cases hx : x = y <;> by_cases hd : d.data.confirms k = true <;> simp [hx, hd]
    rw [hone, List.filter_cons]
    by_cases hx : x = y <;> by_cases hd : d.data.confirms k = true <;> simp [hx, hd]; omega

theorem data_enterAll (now : Moment) (x : Identifier) (ds : List EventDraft) (s : Store) (n : Nat)
    {v : Event} (h : v ∈ (s.enterAll now x n ds).events) :
    v ∈ s.events ∨ ∃ d ∈ ds, d.data = v.data := by
  induction ds generalizing s n with
  | nil => exact .inl h
  | cons d ds ih =>
    rcases ih _ _ h with hv | ⟨d', hd', hv⟩
    · rcases List.mem_append.mp hv with hv | hv
      · exact .inl hv
      · rw [List.mem_singleton.mp hv]
        exact .inr ⟨d, List.mem_cons_self .., rfl⟩
    · exact .inr ⟨d', List.mem_cons_of_mem _ hd', hv⟩

end Store

/-! ## The log of a run -/

namespace Store.Tallied

variable {v u : Service} {by' : Caller}

/-- The conditions of a new escrow are open, and the log does not tell of them. -/
theorem creation {s : Store} {c : Counters} (hk : Kept s c) (h : s.Tallied) {e : Escrow}
    (l : List ConditionInput) {now : Moment} {n : Nat} {d : EventDraft}
    (hd : ∀ k, d.data.confirms k = false) :
    ((s.add e (numberConditions e.id (c.conditions + 1) l)).enter now e.id n d).Tallied := by
  generalize hcs : numberConditions e.id (c.conditions + 1) l = cs
  have hlog : ∀ x k, (((s.add e cs).enter now e.id n d).confirmations x k).length =
      (s.confirmations x k).length := by
    intro x k
    have hlength := length_confirmations_enterAll now e.id x k [d] (s.add e cs) n
    rw [List.filter_cons_of_neg (by simp [hd]), List.filter_nil, List.length_nil,
      ite_self] at hlength
    exact hlength
  constructor
  case once =>
    intro q hq
    rw [hlog]
    rcases List.mem_append.mp hq with hq | hq
    · exact h.once q hq
    · subst hcs
      obtain ⟨-, hm, j, hj, -, hqj⟩ := mem_numberConditions hq
      rw [hm, if_neg Bool.false_ne_true, List.length_eq_zero_iff, confirmations,
        List.filter_eq_nil_iff]
      intro b hb hbq
      -- An event about it would be about a condition that is there, under a number not yet used.
      obtain ⟨q', hq', hid⟩ := List.mem_map.mp (h.known b (List.mem_filter.mp hb).1 q.id hbq)
      obtain ⟨i, hi, hqi⟩ := hk.conditionsNumbered q' hq'
      have : i = j := Identifier.numbered_injective (hqi.symm.trans (hid.trans hqj))
      omega
  case known =>
    intro b hb k hbk
    show k ∈ (s.conditions ++ cs).map (·.id)
    rw [List.map_append, List.mem_append]
    rcases List.mem_append.mp hb with hb | hb
    · exact .inl (h.known b hb k hbk)
    · rw [List.mem_singleton.mp hb] at hbk
      have hbk : d.data.confirms k = true := hbk
      rw [hd] at hbk
      cases hbk

/-- A deed that meets a condition tells so. -/
theorem deed {s : Store} {c : Counters} (hk : Kept s c) (h : s.Tallied) {x : Identifier}
    {e : Escrow} {w : Writes} {paid : Option (SettleRequest × String)}
    (hd : Deed by' e (s.conditionsOf x) w paid) (now : Moment) (n : Nat) :
    ((s.changed now x w).enterAll now x n w.drafts).Tallied := by
  have hopen : ∀ m, w.met = some m →
      ∃ d ∈ s.conditions, d.escrow = x ∧ d.id = m.1 ∧ d.met = false := by
    intro m hm
    obtain ⟨d, hd, hid, ho⟩ := hd.met_open hm
    obtain ⟨hds, hdx⟩ := List.mem_filter.mp hd
    exact ⟨d, hds, of_decide_eq_true hdx, hid, ho⟩
  constructor
  case once =>
    intro q hq
    rw [conditions_enterAll] at hq
    obtain ⟨q, hqs, rfl⟩ := List.mem_map.mp hq
    rw [length_confirmations_enterAll, Writes.onCondition_id, Writes.onCondition_escrow,
      Writes.onCondition_met, hd.confirms]
    have hlog : (s.changed now x w).confirmations q.escrow q.id =
        s.confirmations q.escrow q.id := rfl
    rw [hlog, h.once q hqs]
    by_cases hmet : (w.met.any fun m => m.1 = q.id) = true
    · -- The condition that is met now was open, so the log did not tell of it before.
      obtain ⟨m, hm, hmq⟩ := (Option.any_eq_true ..).mp hmet
      obtain ⟨d, hds, hdx, hdm, hdo⟩ := hopen m hm
      have hdq : d = q :=
        List.inj_on_of_nodup_map hk.conditionsDistinct hds hqs (hdm.trans (of_decide_eq_true hmq))
      subst hdq
      simp [hdx, hdo, hmet]
    · simp [hmet]
  case known =>
    intro b hb k hbk
    rw [conditions_enterAll]
    have hids : (s.changed now x w).conditions.map (·.id) = s.conditions.map (·.id) := by
      simp [changed, Function.comp_def]
    rw [hids]
    rcases data_enterAll now x w.drafts _ n hb with hb | ⟨d, hdm, hdb⟩
    · exact h.known b hb k hbk
    · have hpos : 0 < (w.drafts.filter fun d => d.data.confirms k).length :=
        List.length_pos_of_mem (List.mem_filter.mpr ⟨hdm, by rw [hdb]; exact hbk⟩)
      rw [hd.confirms] at hpos
      split at hpos
      next hmet =>
        obtain ⟨m, hm, hmk⟩ := (Option.any_eq_true ..).mp hmet
        obtain ⟨d, hds, -, hdm, -⟩ := hopen m hm
        exact List.mem_map.mpr ⟨d, hds, hdm.trans (of_decide_eq_true hmk)⟩
      next => cases hpos

end Store.Tallied

/-- The log of every run tells of each confirmation once. -/
theorem Reachable.tallied {v : Service} (h : Reachable v) : v.store.Tallied := by
  refine h.invariant (I := fun v => v.store.Tallied) ?start ?effect ?other
  case start =>
    intro clock settings dispatcher lease
    exact ⟨(fun c hc => nomatch hc), (fun b hb => nomatch hb)⟩
  case effect =>
    intro v u by' hv ih hu
    cases hu with
    | nothing => exact ih
    | creation hn hf he hc =>
      subst hc
      exact ih.creation hv.kept _ fun _ => rfl
    | deed he hd ha => exact ih.deed hv.kept hd _ _
  case other =>
    intro v u hstore _ _ ih
    rw [hstore]
    exact ih

/-! ## Conditions that are met -/

/-- What was met, or is met now, is met afterwards. -/
theorem Store.met_changed {s : Store} {w : Writes} {c : Condition} (hc : c ∈ s.conditions)
    (hm : c.met = true ∨ ∃ user, w.met = some (c.id, user)) (now : Moment) (x : Identifier)
    (n : Nat) (ds : List EventDraft) : ((s.changed now x w).enterAll now x n ds).Met c.id := by
  refine ⟨w.onCondition now c, ?_, Writes.onCondition_id .., ?_⟩
  · rw [conditions_enterAll]
    exact List.mem_map_of_mem hc
  · rw [Writes.onCondition_met]
    rcases hm with hm | ⟨user, hm⟩
    · rw [hm, Bool.true_or]
    · simp [hm]

/-- A payment meets no condition. -/
theorem planPayout_met {e : Escrow} {basis : ReleaseBasis} {by' : Caller}
    {ask : SettleRequest → LedgerAnswer} :
    ((planPayout e basis by').conclude ask).writes.met = none := by
  unfold planPayout
  cases move e .completed with
  | error f => rfl
  | ok _ =>
    cases e.recipient? with
    | none => rfl
    | some b =>
      simp only [Plan.conclude]
      split <;> rfl

/-- Nor does a release. -/
theorem planRelease_met {manual : Bool} {e : Escrow} {by' : Caller} {cs : List Condition}
    {ask : SettleRequest → LedgerAnswer} :
    ((planRelease manual by' e cs).conclude ask).writes.met = none := by
  unfold planRelease
  split
  next => rfl
  next =>
    split
    next => rfl
    next =>
      split
      next => rfl
      next => exact planPayout_met

/-- A confirmation that goes through finds its condition met, or meets it. -/
theorem planConfirmation_met {k : Identifier} {by' : Caller} {e : Escrow} {cs : List Condition}
    {ask : SettleRequest → LedgerAnswer}
    (h : ((planConfirmation k by' e cs).conclude ask).verdict = .ok ()) :
    ∃ c ∈ cs, c.id = k ∧ (c.met = true ∨
      ((planConfirmation k by' e cs).conclude ask).writes.met = some (k, by'.user)) := by
  unfold planConfirmation at h ⊢
  cases hf : cs.find? fun c => c.id = k with
  | none => simp [hf, Plan.refuse, Plan.conclude] at h
  | some c =>
    refine ⟨c, List.mem_of_find?_eq_some hf, by simpa using List.find?_some hf, ?_⟩
    simp only [hf] at h ⊢
    by_cases hm : c.met = true
    · exact .inl hm
    · right
      simp only [if_neg hm] at h ⊢
      cases hp : permit e by'.user .confirmCondition with
      | error f => simp [hp, Plan.refuse, Plan.conclude] at h
      | ok _ =>
        simp only [hp] at h ⊢
        split at h
        next ho =>
          rw [if_pos ho, Plan.conclude_after]
          show (Writes.followedBy _ _).met = _
          rw [Writes.followedBy, planRelease_met]
          rfl
        next ho =>
          rw [if_neg ho]
          rfl

/-- Work under a lock that goes through is the work. -/
theorem underLock_eq_ok {α : Type} {env : Surroundings} {x : Identifier}
    {work : Store → Counters → Outcome α} {s : Store} {c : Counters} {a : α}
    (h : (underLock env x work s c).result = .ok a) :
    (work s c).result = .ok a ∧ (underLock env x work s c).store = (work s c).store := by
  unfold underLock at h ⊢
  split at h
  next => cases h
  next hl =>
    rw [if_neg hl]
    cases hd : env.database with
    | some f =>
      rw [hd] at h
      cases h
    | none =>
      rw [hd] at h
      exact ⟨h, rfl⟩

/-- A confirmation that goes through leaves its condition met. -/
theorem Service.met_of_confirmed {v : Service} {by' : Caller} {k : Identifier} {a : Answer}
    (h : (v.perform by' (.confirm k)).1 = .ok a) :
    (v.perform by' (.confirm k)).2.1.store.Met k := by
  simp only [perform, performSeeing, Operation.run, confirmCondition] at h ⊢
  cases hdb : v.surroundings.database with
  | some f =>
    simp only [hdb] at h
    cases h
  | none =>
    simp only [hdb] at h ⊢
    cases hk : v.store.condition? k with
    | none =>
      simp only [hk] at h
      cases h
    | some q =>
      simp only [hk] at h ⊢
      by_cases hm : q.met = true
      · rw [if_pos hm]
        exact ⟨q, List.mem_of_find?_eq_some hk, by simpa using List.find?_some hk, hm⟩
      · rw [if_neg hm] at h ⊢
        -- The answer is made of the outcome under the lock, so that went through as well.
        have hok : ∃ e, (underLock v.surroundings q.escrow
            (carryOut v.surroundings q.escrow (planConfirmation k by')) v.store v.counters).result =
              .ok e := by
          cases ho : (underLock v.surroundings q.escrow
            (carryOut v.surroundings q.escrow (planConfirmation k by')) v.store v.counters).result with
          | ok e => exact ⟨e, rfl⟩
          | error f =>
            simp only [Outcome.mapResult, ho, Except.map] at h
            cases h
        obtain ⟨e, he⟩ := hok
        obtain ⟨hwork, hstore⟩ := underLock_eq_ok he
        obtain ⟨e, -, hv, hwritten⟩ := carryOut_eq_ok hwork
        obtain ⟨c, hc, hid, hmet⟩ := planConfirmation_met hv
        rw [Outcome.store_mapResult, hstore, hwritten]
        subst hid
        exact Store.met_changed (List.mem_filter.mp hc).1
          (hmet.imp_right fun hmet => ⟨_, hmet⟩) ..

/-- A condition that was met stays met. -/
theorem Effect.met {v u : Service} {by' : Caller} (h : Effect v by' u) {k : Identifier}
    (hk : v.store.Met k) : u.store.Met k := by
  obtain ⟨c, hc, hid, hm⟩ := hk
  cases h with
  | nothing => exact ⟨c, hc, hid, hm⟩
  | creation => exact ⟨c, List.mem_append_left _ hc, hid, hm⟩
  | deed =>
    subst hid
    exact Store.met_changed hc (.inl hm) ..

end Custody

import Custody.Proofs.Run

/-!
# What is told

An operation announces at most one thing, and the dispatcher makes of it what others get: a
notification that is kept, an envelope in a queue, or an entry of the log. An operation writes many
entries of its own, and none of them can be taken for a notification.

> `Operation.silent_run`: the entries that an operation writes stand for no notification.
> `Service.delivers_perform`: an operation tells what the dispatcher makes of its announcement, and
> nothing else.
-/

namespace Custody

/-! ## Entries of the log -/

/-- An entry of the log that does not stand for a notification. -/
def LogEntry.Silent (l : LogEntry) : Prop := l.event ≠ "notification.logged"

theorem LogEntry.silent_mk {event : String} (h : event ≠ "notification.logged") (level : LogLevel)
    (fields : List (String × Json)) : (LogEntry.mk level event fields).Silent := h

/-- Writes whose entries in the log are silent. -/
structure Writes.Silent (w : Writes) : Prop where
  log : ∀ l ∈ w.log, l.Silent
  closing : ∀ l ∈ w.closing, l.Silent

namespace Writes

theorem additive_silent : Additive Silent :=
  ⟨⟨(fun _ hl => nomatch hl), (fun _ hl => nomatch hl)⟩, fun ha hb =>
    ⟨fun l hl => (List.mem_append.mp hl).elim (ha.log l) (hb.log l),
      fun l hl => (List.mem_append.mp hl).elim (ha.closing l) (hb.closing l)⟩⟩

/-- Writes that close the log with one entry. -/
theorem Silent.ofClosing {w : Writes} {entry : LogEntry} (hlog : w.log = [])
    (hclosing : w.closing = [entry]) (h : entry.Silent) : w.Silent := by
  refine ⟨fun l hl => ?_, fun l hl => ?_⟩
  · rw [hlog] at hl
    cases hl
  · rw [hclosing] at hl
    rw [List.mem_singleton.mp hl]
    exact h

/-- Writes with one entry on the way. -/
theorem Silent.ofLog {w : Writes} {entry : LogEntry} (hlog : w.log = [entry])
    (hclosing : w.closing = []) (h : entry.Silent) : w.Silent := by
  refine ⟨fun l hl => ?_, fun l hl => ?_⟩
  · rw [hlog] at hl
    rw [List.mem_singleton.mp hl]
    exact h
  · rw [hclosing] at hl
    cases hl

end Writes

/-! ## Plans -/

namespace Plan

variable {by' : Caller} {e : Escrow} {cs : List Condition}

theorem silent_payout (basis : ReleaseBasis) : (planPayout e basis by').Each Writes.Silent := by
  unfold planPayout
  split
  next => exact each_refuse Writes.additive_silent _
  next =>
    split
    next => exact each_refuse Writes.additive_silent _
    next =>
      refine ⟨.ofLog rfl rfl (LogEntry.silent_mk (by decide) _ _), fun r paid hn t => ?_⟩
      cases hn
      exact .ofLog rfl rfl (LogEntry.silent_mk (by decide) _ _)

theorem silent_release (manual : Bool) :
    (planRelease manual by' e cs).Each Writes.Silent := by
  unfold planRelease
  split
  next =>
    exact ⟨.ofLog rfl rfl (LogEntry.silent_mk (by decide) _ _), (fun _ _ hn => nomatch hn)⟩
  next =>
    split
    next => exact each_refuse Writes.additive_silent _
    next =>
      split
      next => exact each_refuse Writes.additive_silent _
      next => exact silent_payout _

theorem silent_cancel {type : EventType} {notice : Notice} {data : EventData}
    {reason : Option String} {w : Writes}
    (h : cancelWrites e type notice data reason by' = .ok w) : w.Silent := by
  obtain ⟨_, -, h⟩ := Except.bind_eq_ok_iff.mp h
  cases h
  exact .ofLog rfl rfl (LogEntry.silent_mk (by decide) _ _)

theorem silent_confirmation (k : Identifier) :
    (planConfirmation k by' e cs).Each Writes.Silent := by
  unfold planConfirmation
  split
  next => exact each_refuse Writes.additive_silent _
  next c _ =>
    split
    next => exact ⟨.ofLog rfl rfl (LogEntry.silent_mk (by decide) _ _), (fun _ _ hn => nomatch hn)⟩
    next =>
      split
      next => exact each_refuse Writes.additive_silent _
      next =>
        -- The entry that the condition is met comes first, whatever follows.
        have hmet : Writes.Silent
            { met := some (k, by'.user)
              drafts := [⟨.conditionMet, by'.user, some e.status, some e.status,
                .conditionMet k c.description, by'.address⟩]
              log := [about e.id .info "condition.met"
                [("condition_id", .text k.text), ("met_by", .text by'.user)]] } :=
          .ofLog rfl rfl (LogEntry.silent_mk (by decide) _ _)
        simp only
        split
        next =>
          refine Each.after Writes.additive_silent (silent_release _)
            (Writes.additive_silent.followedBy hmet ?_)
          exact .ofLog rfl rfl (LogEntry.silent_mk (by decide) _ _)
        next => exact ⟨hmet, (fun _ _ hn => nomatch hn)⟩

/-- What the plan of a task writes into the log is silent. -/
theorem silent_task (t : Task) (now : Moment) : (t.plan now by' e cs).Each Writes.Silent := by
  -- A task writes one entry when it is over, or those of its own lemma, or none.
  cases t with
  | update r =>
    refine each_ofWrites Writes.additive_silent fun w hw => ?_
    obtain ⟨_, -, hw⟩ := Except.bind_eq_ok_iff.mp hw
    simp only at hw
    split at hw
    next =>
      cases hw
      exact Writes.additive_silent.nothing
    next =>
      cases hw
      exact .ofClosing rfl rfl (LogEntry.silent_mk (by decide) _ _)
  | activate x =>
    refine each_ofWrites Writes.additive_silent fun w hw => ?_
    obtain ⟨_, -, hw⟩ := Except.bind_eq_ok_iff.mp hw
    obtain ⟨_, -, hw⟩ := Except.bind_eq_ok_iff.mp hw
    cases hw
    exact .ofClosing rfl rfl (LogEntry.silent_mk (by decide) _ _)
  | dispute reason =>
    refine each_ofWrites Writes.additive_silent fun w hw => ?_
    obtain ⟨_, -, hw⟩ := Except.bind_eq_ok_iff.mp hw
    obtain ⟨_, -, hw⟩ := Except.bind_eq_ok_iff.mp hw
    cases hw
    exact .ofClosing rfl rfl (LogEntry.silent_mk (by decide) _ _)
  | release manual => exact silent_release manual
  | cancel reason =>
    refine each_ofWrites Writes.additive_silent fun w hw => ?_
    obtain ⟨_, -, hw⟩ := Except.bind_eq_ok_iff.mp hw
    exact silent_cancel hw
  | expire reason t =>
    refine each_ofWrites Writes.additive_silent fun w hw => ?_
    obtain ⟨_, -, hw⟩ := Except.bind_eq_ok_iff.mp hw
    obtain ⟨d, -, hw⟩ := Except.bind_eq_ok_iff.mp hw
    cases d with
    | none => cases hw
    | some d =>
      obtain ⟨_, -, hw⟩ := Except.bind_eq_ok_iff.mp hw
      split at hw
      next => exact silent_cancel hw
      next => cases hw
  | resolve resolution note =>
    show (planResolution resolution note by' e).Each _
    unfold planResolution
    split
    next => exact each_refuse Writes.additive_silent _
    next =>
      split
      next => exact each_refuse Writes.additive_silent _
      next r =>
        refine Each.closing Writes.additive_silent ?_
          (.ofClosing rfl rfl (LogEntry.silent_mk (by decide) _ _))
        cases r with
        | release => exact silent_payout _
        | refund =>
          exact each_ofWrites Writes.additive_silent fun w hw => silent_cancel hw

end Plan

/-! ## Operations -/

/-- A piece of work whose entries in the log are silent. -/
structure Outcome.Silent {α : Type} (o : Outcome α) : Prop where
  log : ∀ l ∈ o.log, l.Silent
  closing : ∀ l ∈ o.closing, l.Silent

section Operations

variable {env : Surroundings} {x : Identifier} {s : Store} {c : Counters}

theorem Outcome.silent_refused {α : Type} (s : Store) (c : Counters) (f : Failure) :
    (Outcome.refused s c [] f : Outcome α).Silent :=
  ⟨(fun _ hl => nomatch hl), (fun _ hl => nomatch hl)⟩

theorem Outcome.Silent.mapResult {α β : Type} {o : Outcome α} (h : o.Silent) (f : α → β) :
    (o.mapResult f).Silent :=
  ⟨h.log, h.closing⟩

theorem silent_carryOut {plan : Escrow → List Condition → Plan}
    (hplan : ∀ e cs, (plan e cs).Each Writes.Silent) (hask : ∀ r, ∀ l ∈ (env.ask r).log, l.Silent) :
    (carryOut env x plan s c).Silent := by
  cases he : s.escrow? x with
  | none =>
    rw [carryOut_of_none he]
    exact Outcome.silent_refused ..
  | some e =>
    generalize hk : (plan e (s.conditionsOf x)).conclude env.ask = k
    have hw : k.writes.Silent := by
      rw [← hk]
      refine (hplan e _).conclude Writes.additive_silent (fun r => ⟨hask r, ?_⟩) fun y f => ?_
      · exact fun _ hl => nomatch hl
      · exact .ofLog rfl rfl (LogEntry.silent_mk (by decide) _ _)
    cases hv : k.verdict with
    | error f =>
      rw [carryOut_of_error he hk hv]
      exact ⟨hw.log, (fun _ hl => nomatch hl)⟩
    | ok _ =>
      cases ha : s.apply env.now x (c.events + 1) k.writes with
      | error f =>
        rw [carryOut_of_rejected he hk hv ha]
        exact ⟨hw.log, (fun _ hl => nomatch hl)⟩
      | ok s' =>
        rw [carryOut_of_ok he hk hv ha]
        exact ⟨hw.log, hw.closing⟩

/-- A lock adds entries of its own, and they are silent, too. -/
theorem silent_underLock {work : Store → Counters → Outcome Escrow} (hwork : (work s c).Silent) :
    (underLock env x work s c).Silent := by
  have locked : ∀ {o : Outcome Escrow}, o.Silent →
      ({ o with log := o.log.map (LogEntry.bind (some x)) ++ env.unlockLog x } :
        Outcome Escrow).Silent := by
    refine fun {o} ho => ⟨fun l hl => ?_, ho.closing⟩
    rcases List.mem_append.mp hl with hl | hl
    · obtain ⟨k, hk, rfl⟩ := List.mem_map.mp hl
      exact ho.log k hk
    · unfold Surroundings.unlockLog at hl
      split at hl
      next =>
        split at hl
        next => cases hl
        next =>
          rw [List.mem_singleton.mp hl]
          exact LogEntry.silent_mk (by decide) _ _
      next => cases hl
  -- A lock that is not to be had writes the only entry; else the entries of the work are bound to it.
  unfold underLock
  split
  next =>
    refine ⟨fun l hl => ?_, (fun _ hl => nomatch hl)⟩
    rw [List.mem_singleton.mp hl]
    exact LogEntry.silent_mk (by decide) _ _
  next =>
    cases env.database with
    | some f => exact locked (Outcome.silent_refused ..)
    | none => exact locked hwork

/-- The entries that an operation writes stand for no notification. -/
theorem Operation.silent_run (hask : ∀ r, ∀ l ∈ (env.ask r).log, l.Silent) (by' : Caller)
    (op : Operation) (seen : Store) : (op.run env by' seen s c).Silent := by
  cases op with
  | create n =>
    refine Outcome.Silent.mapResult ?_ _
    unfold createEscrow
    split
    next => exact Outcome.silent_refused ..
    next =>
      simp only
      split
      next => exact Outcome.silent_refused ..
      next =>
        split
        next => exact Outcome.silent_refused ..
        next =>
          refine ⟨List.forall_mem_nil _, fun l hl => ?_⟩
          rw [List.mem_singleton.mp hl]
          exact LogEntry.silent_mk (by decide) _ _
  | task y t =>
    exact (silent_underLock (silent_carryOut (fun _ _ => Plan.silent_task t _) hask)).mapResult _
  | confirm k =>
    simp only [Operation.run, confirmCondition]
    split
    next => exact Outcome.silent_refused ..
    next =>
      split
      next => exact Outcome.silent_refused ..
      next q _ =>
        split
        next =>
          refine ⟨fun l hl => ?_, List.forall_mem_nil _⟩
          rw [List.mem_singleton.mp hl]
          exact LogEntry.silent_mk (by decide) _ _
        next =>
          exact (silent_underLock
            (silent_carryOut (fun _ _ => Plan.silent_confirmation k) hask)).mapResult _

end Operations

/-! ## Deliveries -/

/-- Effects tell what a delivery does. An entry of the log that stands for a notification is one of
the delivery, whatever else it carries. -/
structure Effects.Delivers (fx : Effects) (d : Delivery) : Prop where
  sent : fx.sent = d.sent
  queued : fx.queued = d.queued
  logged : ∀ l ∈ fx.log, ¬l.Silent → ∃ k ∈ d.log, k.event = l.event ∧ k.fields <:+ l.fields

namespace Effects

variable {fx : Effects} {d : Delivery}

theorem delivers_nothing : nothing.Delivers .none := ⟨rfl, rfl, fun _ hl => nomatch hl⟩

/-- Silent entries tell nothing. -/
theorem Delivers.followedBy_ofLog (h : fx.Delivers d) {es : List LogEntry}
    (hes : ∀ l ∈ es, l.Silent) : (fx.followedBy (ofLog es)).Delivers d := by
  refine ⟨(List.append_nil _).trans h.sent, (List.append_nil _).trans h.queued, fun l hl hs => ?_⟩
  rcases List.mem_append.mp hl with hl | hl
  · exact h.logged l hl hs
  · exact absurd (hes l hl) hs

/-- What is bound to the log does not change what is told. -/
theorem Delivers.mark (h : fx.Delivers d) (v : Service) : (v.mark fx).Delivers d := by
  refine ⟨h.sent, h.queued, fun l hl hs => ?_⟩
  obtain ⟨m, hm, rfl⟩ := List.mem_map.mp hl
  obtain ⟨k, hk, hevent, hfields⟩ := h.logged m hm hs
  exact ⟨k, hk, hevent, hfields.trans (List.suffix_append ..)⟩

end Effects

namespace Service

/-- What an operation gives to the dispatcher. -/
def announced (v : Service) (by' : Caller) (op : Operation) : Option Notification :=
  (op.run v.surroundings by' v.store v.store v.counters).announced

/-- What the dispatcher makes of an announcement. -/
def delivery (v : Service) (note : Option Notification) : Delivery :=
  v.dispatcher.send v.brokenDispatcher v.now note

/-- An operation tells what the dispatcher makes of its announcement, and nothing else. -/
theorem delivers_perform (v : Service) (by' : Caller) (op : Operation) :
    (v.perform by' op).2.2.Delivers (v.delivery (v.announced by' op)) := by
  have hask : ∀ r, ∀ l ∈ (v.surroundings.ask r).log, l.Silent := by
    intro r l hl
    change l ∈ (v.ask r).log at hl
    unfold ask at hl
    split at hl
    next =>
      rw [List.mem_singleton.mp hl]
      exact LogEntry.silent_mk (by decide) _ _
    next => cases hl
  have hsilent : (op.run v.surroundings by' v.store v.store v.counters).Silent :=
    Operation.silent_run hask by' op v.store
  refine ⟨rfl, rfl, fun l hl hs => ?_⟩
  rcases List.mem_append.mp hl with hl | hl
  · rcases List.mem_append.mp hl with hl | hl
    · exact absurd (hsilent.log l hl) hs
    · exact absurd (hsilent.closing l hl) hs
  · exact ⟨l, hl, rfl, List.suffix_refl _⟩

end Service

end Custody

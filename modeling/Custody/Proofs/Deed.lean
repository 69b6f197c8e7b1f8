import Custody.Service.Operation

/-!
# What an operation comes to

Every plan that is made for an escrow, and that the ledger lets through, is one of a dozen deeds.
`Deed` lists them once, each with what allowed it and with all that it writes; what is true of every
operation is then a case analysis over the list, and no proof opens a plan again.

> `Task.isDeed`: a task that goes through is a deed.
> `isDeed_planConfirmation`: so is a confirmation.
> `Plan.conclude_error_asked`: a plan that does not go through has nothing from the ledger.
-/

namespace Custody

/-! ## Permission -/

/-- The policy lets a user through on the word of the table alone, or of a role that is held. -/
theorem permit_eq_ok_iff {e : Escrow} {actor : String} {a : Action} :
    permit e actor a = .ok () ↔
      permission a e.status = .system ∨
        ∃ rs, permission a e.status = .roles rs ∧ ∃ r ∈ rs, ⟨actor, r⟩ ∈ e.parties := by
  unfold permit authorize verdict
  cases hp : permission a e.status with
  | system => simp [Verdict.enforce, domain]
  | roles rs =>
    simp only [reduceCtorEq, Permission.roles.injEq, exists_eq_left', false_or]
    split
    next h =>
      obtain ⟨r, hr, hc⟩ := List.any_eq_true.mp h
      simp only [Verdict.enforce, domain, true_iff]
      exact ⟨r, hr, mem_rolesFor.mp (List.contains_iff_mem.mp hc)⟩
    next h =>
      simp only [Verdict.enforce, domain, reduceCtorEq, false_iff]
      rintro ⟨r, hr, hmem⟩
      exact h (List.any_eq_true.mpr ⟨r, hr, List.contains_iff_mem.mpr (mem_rolesFor.mpr hmem)⟩)
  | nobody =>
    simp only [reduceCtorEq, false_and, exists_false, or_self, iff_false]
    split
    next => split <;> simp [Verdict.enforce, domain]
    next => simp [Verdict.enforce, domain]

/-- A move that is made ends where it was meant to, one step from where it began. -/
theorem move_eq_ok_iff {e : Escrow} {t s : Status} :
    move e t = .ok s ↔ t ∈ e.status.successors ∧ s = t := by
  unfold move
  cases h : advance e.status t with
  | ok u =>
    obtain ⟨hm, rfl⟩ := advance_eq_ok_iff.mp h
    simp only [Except.ok.injEq]
    exact ⟨fun hs => ⟨hm, hs.symm⟩, fun hs => hs.2.symm⟩
  | error f =>
    simp only [reduceCtorEq, false_iff, not_and]
    intro hm
    rw [advance_eq_ok_iff.mpr ⟨hm, rfl⟩] at h
    cases h

/-! ## Deeds -/

/-- What writes change and announce, log entries aside. -/
structure Writes.Come (w : Writes) (met : Option (Identifier × String)) (patch : Option Patch)
    (drafts : List EventDraft) (announcement : Option Announcement) : Prop where
  met_eq : w.met = met
  patch_eq : w.patch = patch
  drafts_eq : w.drafts = drafts
  announcement_eq : w.announcement = announcement

/-- The draft of the event that a condition was met. -/
def confirmationDraft (by' : Caller) (e : Escrow) (c : Condition) : EventDraft :=
  ⟨.conditionMet, by'.user, some e.status, some e.status, .conditionMet c.id c.description,
    by'.address⟩

/-- The draft of the event that an escrow was left without paying anyone. -/
def leavingDraft (by' : Caller) (e : Escrow) (type : EventType) (data : EventData) : EventDraft :=
  ⟨type, by'.user, some e.status, some .cancelled, data, by'.address⟩

/-- The draft of the event that the seller was paid. -/
def paymentDraft (by' : Caller) (e : Escrow) (basis : ReleaseBasis)
    (beneficiary transaction : String) : EventDraft :=
  ⟨.completed, by'.user, some e.status, some .completed,
    .completed basis beneficiary transaction, by'.address⟩

/-- What is announced of a payment. -/
def paymentNote (beneficiary transaction : String) : Announcement :=
  ⟨.released, [("beneficiary", .json (.text beneficiary)), ("tx_hash", .json (.text transaction))]⟩

/-- What an operation by a caller comes to on an escrow with these conditions when it goes through:
what it writes, and the payment that the ledger made for it. The first three write nothing. -/
inductive Deed (by' : Caller) (e : Escrow) (cs : List Condition) :
    Writes → Option (SettleRequest × String) → Prop
  | sameTerms {w : Writes} (hp : permit e by'.user .update = .ok ())
      (hw : w.Come none none [] none) : Deed by' e cs w none
  | releasedBefore {w : Writes} (h : e.status = .completed ∨ e.released = true)
      (hw : w.Come none none [] none) : Deed by' e cs w none
  | metBefore {w : Writes} {c : Condition} (hc : c ∈ cs) (hm : c.met = true)
      (hw : w.Come none none [] none) : Deed by' e cs w none
  | terms {w : Writes} {r : UpdateRequest} (hp : permit e by'.user .update = .ok ())
      (hc : changesOf e r ≠ [])
      (hw : w.Come none (some (.terms (changesOf e r)))
        [⟨.updated, by'.user, some e.status, some e.status, .updated (changesOf e r), by'.address⟩]
        (some ⟨.updated, [("changes", .json (changedFields (changesOf e r)))]⟩)) :
      Deed by' e cs w none
  | activation {w : Writes} {t : Option String} (hp : permit e by'.user .activate = .ok ())
      (hw : w.Come none (some (.activation t))
        [⟨.activated, by'.user, some e.status, some .active, .activated t, by'.address⟩]
        (some ⟨.activated, []⟩)) :
      Deed by' e cs w none
  | dispute {w : Writes} {reason : Option String} (hp : permit e by'.user .raiseDispute = .ok ())
      (hw : w.Come none (some .dispute)
        [⟨.disputed, by'.user, some e.status, some .disputed, .disputed reason, by'.address⟩]
        (some ⟨.disputed,
          [("raised_by", .json (.text by'.user)), ("reason", .json (Json.ofText? reason))]⟩)) :
      Deed by' e cs w none
  | cancellation {w : Writes} {reason : Option String} (hp : permit e by'.user .cancel = .ok ())
      (hw : w.Come none (some .cancellation)
        [leavingDraft by' e .cancelled (.cancelled none reason e.status)]
        (some ⟨.cancelled, [("reason", .json (Json.ofText? reason))]⟩)) :
      Deed by' e cs w none
  | expiry {w : Writes} {reason : String} {now d n : Moment}
      (hp : permit e by'.user .expire = .ok ())
      (hd : normalizeMoment e.deadline = .ok (some d))
      (hn : normalizeMoment (some now) = .ok (some n))
      (hlt : d.instant < n.instant)
      (hw : w.Come none (some .cancellation)
        [leavingDraft by' e .expired (.expired reason d e.status)]
        (some ⟨.expired, [("reason", .json (.text reason))]⟩)) :
      Deed by' e cs w none
  | refund {w : Writes} {note : Option String} {reason : String}
      (hp : permit e by'.user .resolveDispute = .ok ())
      (hw : w.Come none (some .cancellation)
        [leavingDraft by' e .cancelled (.cancelled (some (.refund, note)) (some reason) e.status)]
        (some ⟨.cancelled, [("reason", .json (.text reason))]⟩)) :
      Deed by' e cs w none
  | decided {w : Writes} {note : Option String} {b t : String}
      (hp : permit e by'.user .resolveDispute = .ok ()) (hb : e.recipient? = some b)
      (hw : w.Come none (some (.completion t)) [paymentDraft by' e (.decision .release note) b t]
        (some (paymentNote b t))) :
      Deed by' e cs w (some (⟨e.id, b⟩, t))
  | release {w : Writes} {manual : Bool} {b t : String} (hs : e.status = .active)
      (hn : e.released = false) (hp : permitRelease e cs manual by' = .ok ())
      (hb : e.recipient? = some b)
      (hw : w.Come none (some (.completion t)) [paymentDraft by' e (.request manual) b t]
        (some (paymentNote b t))) :
      Deed by' e cs w (some (⟨e.id, b⟩, t))
  | confirmation {w : Writes} {c : Condition} (hc : c ∈ cs) (hm : c.met = false)
      (hp : permit e by'.user .confirmCondition = .ok ())
      (ho : ∃ d ∈ cs, d.id ≠ c.id ∧ d.met = false)
      (hw : w.Come (some (c.id, by'.user)) none [confirmationDraft by' e c] none) :
      Deed by' e cs w none
  | lastConfirmation {w : Writes} {c : Condition} {b t : String} (hc : c ∈ cs) (hm : c.met = false)
      (hp : permit e by'.user .confirmCondition = .ok ()) (hs : e.status = .active)
      (hn : e.released = false) (ho : ∀ d ∈ cs, d.id ≠ c.id → d.met = true)
      (hb : e.recipient? = some b)
      (hw : w.Come (some (c.id, by'.user)) (some (.completion t))
        [confirmationDraft by' e c,
          paymentDraft ⟨e.creator, by'.address⟩ e (.request false) b t]
        (some (paymentNote b t))) :
      Deed by' e cs w (some (⟨e.id, b⟩, t))

/-! ## Writes put together -/

namespace Writes

theorem followedBy_assoc (a b c : Writes) :
    (a.followedBy b).followedBy c = a.followedBy (b.followedBy c) := by
  simp [followedBy, List.append_assoc, Option.or_assoc]

/-- Entries of the log alone change nothing of what writes come to. -/
theorem Come.loggedAfter {a w : Writes} {met : Option (Identifier × String)} {patch : Option Patch}
    {drafts : List EventDraft} {announcement : Option Announcement}
    (hw : w.Come met patch drafts announcement) (ha : a.Come none none [] none) :
    (w.followedBy a).Come met patch drafts announcement := by
  refine ⟨?_, ?_, ?_, ?_⟩
  · simp [followedBy, ha.met_eq, hw.met_eq]
  · simp [followedBy, ha.patch_eq, hw.patch_eq]
  · simp [followedBy, ha.drafts_eq, hw.drafts_eq]
  · simp [followedBy, ha.announcement_eq, hw.announcement_eq]

end Writes

/-! ## Plans that go through -/

namespace Plan

variable {ask : SettleRequest → LedgerAnswer}

/-- A plan made of writes goes through with just these. -/
theorem conclude_ofWrites {x : Except Failure Writes}
    (h : ((ofWrites x).conclude ask).verdict = .ok ()) :
    ∃ w, x = .ok w ∧ (ofWrites x).conclude ask = ⟨w, .ok (), none⟩ := by
  cases x with
  | ok w => exact ⟨w, rfl, rfl⟩
  | error f => cases h

theorem conclude_after (w : Writes) (p : Plan) :
    (after w p).conclude ask =
      { p.conclude ask with writes := w.followedBy (p.conclude ask).writes } := by
  unfold conclude after
  cases p.next with
  | finish => rfl
  | refuse f => rfl
  | payOut r paid =>
    simp only
    split <;> simp only [Writes.followedBy_assoc]

/-- An entry that closes the log changes nothing but the log. -/
theorem conclude_closing {entry : LogEntry} {p : Plan}
    (h : ((closing entry p).conclude ask).verdict = .ok ()) :
    (closing entry p).conclude ask =
      ⟨(p.conclude ask).writes.followedBy { closing := [entry] }, .ok (), (p.conclude ask).asked⟩ ∧
    (p.conclude ask).verdict = .ok () := by
  unfold conclude closing at *
  cases hn : p.next with
  | finish => simp
  | refuse f => simp [hn] at h
  | payOut r paid =>
    simp only [hn] at h ⊢
    cases ha : (ask r).result with
    | ok t => simp [Writes.followedBy_assoc]
    | error f =>
      rw [ha] at h
      split at h
      next t ht => cases ht
      next => cases h
      next => cases h

end Plan

/-! ## What a plan writes -/

/-- A property of writes that nothing has, and that writes one after another keep. -/
structure Writes.Additive (P : Writes → Prop) : Prop where
  nothing : P nothing
  followedBy : ∀ {a b : Writes}, P a → P b → P (a.followedBy b)

/-- A plan all of whose writes have a property, those that wait for a payment included. -/
structure Plan.Each (P : Writes → Prop) (p : Plan) : Prop where
  first : P p.writes
  paid : ∀ r paid, p.next = .payOut r paid → ∀ t, P (paid t)

namespace Plan

variable {P : Writes → Prop} {p : Plan} {ask : SettleRequest → LedgerAnswer}

theorem each_refuse (hP : Writes.Additive P) (f : Failure) : (refuse f).Each P :=
  ⟨hP.nothing, (fun _ _ hn => nomatch hn)⟩

theorem each_ofWrites (hP : Writes.Additive P) {x : Except Failure Writes}
    (h : ∀ w, x = .ok w → P w) : (ofWrites x).Each P := by
  cases x with
  | error f => exact each_refuse hP f
  | ok w => exact ⟨h w rfl, (fun _ _ hn => nomatch hn)⟩

theorem Each.after (hP : Writes.Additive P) (h : p.Each P) {w : Writes} (hw : P w) :
    (Plan.after w p).Each P :=
  ⟨hP.followedBy hw h.first, h.paid⟩

theorem Each.closing (hP : Writes.Additive P) (h : p.Each P) {entry : LogEntry}
    (he : P { closing := [entry] }) : (Plan.closing entry p).Each P := by
  unfold Plan.closing
  split
  next r paid hn =>
    refine ⟨h.first, fun r' paid' hn' t => ?_⟩
    cases hn'
    exact hP.followedBy (h.paid r paid hn t) he
  next => exact ⟨hP.followedBy h.first he, h.paid⟩

/-- What a plan has written when the ledger has answered has the property, too, if what is noted of
the answer has it. -/
theorem Each.conclude (hP : Writes.Additive P) (h : p.Each P)
    (hlog : ∀ r, P { log := (ask r).log }) (hfailed : ∀ x f, P { log := [ledgerFailedLog x f] }) :
    P (p.conclude ask).writes := by
  unfold Plan.conclude
  cases hn : p.next with
  | finish | refuse f => exact h.first
  | payOut r paid =>
    have htold : P (p.writes.followedBy { log := (ask r).log }) := hP.followedBy h.first (hlog r)
    simp only
    split
    next t _ => exact hP.followedBy htold (h.paid r paid hn t)
    next => exact hP.followedBy htold (hfailed ..)
    next => exact htold

end Plan

/-! ## One deed for each plan -/

variable {by' : Caller} {e : Escrow} {cs : List Condition} {w : Writes}

theorem deed_of_planUpdate {r : UpdateRequest} (h : planUpdate r by' e = .ok w) :
    Deed by' e cs w none := by
  unfold planUpdate at h
  obtain ⟨_, hp, h⟩ := Except.bind_eq_ok_iff.mp h
  simp only at h
  split at h
  next =>
    cases h
    exact .sameTerms hp ⟨rfl, rfl, rfl, rfl⟩
  next hc =>
    cases h
    exact .terms hp hc ⟨rfl, rfl, rfl, rfl⟩

theorem deed_of_planActivation {t : Option String} (h : planActivation t by' e = .ok w) :
    Deed by' e cs w none := by
  unfold planActivation at h
  obtain ⟨_, hp, h⟩ := Except.bind_eq_ok_iff.mp h
  obtain ⟨s, hs, h⟩ := Except.bind_eq_ok_iff.mp h
  obtain ⟨-, rfl⟩ := move_eq_ok_iff.mp hs
  cases h
  exact .activation hp ⟨rfl, rfl, rfl, rfl⟩

theorem deed_of_planDispute {reason : Option String} (h : planDispute reason by' e = .ok w) :
    Deed by' e cs w none := by
  unfold planDispute at h
  obtain ⟨_, hp, h⟩ := Except.bind_eq_ok_iff.mp h
  obtain ⟨s, hs, h⟩ := Except.bind_eq_ok_iff.mp h
  obtain ⟨-, rfl⟩ := move_eq_ok_iff.mp hs
  cases h
  exact .dispute hp ⟨rfl, rfl, rfl, rfl⟩

theorem cancelWrites_come {type : EventType} {notice : Notice} {data : EventData}
    {reason : Option String} (h : cancelWrites e type notice data reason by' = .ok w) :
    w.Come none (some .cancellation) [leavingDraft by' e type data]
      (some ⟨notice, [("reason", .json (Json.ofText? reason))]⟩) := by
  unfold cancelWrites at h
  obtain ⟨s, hs, h⟩ := Except.bind_eq_ok_iff.mp h
  obtain ⟨-, rfl⟩ := move_eq_ok_iff.mp hs
  cases h
  exact ⟨rfl, rfl, rfl, rfl⟩

theorem deed_of_planCancellation {reason : Option String}
    (h : planCancellation reason by' e = .ok w) : Deed by' e cs w none := by
  unfold planCancellation at h
  obtain ⟨_, hp, h⟩ := Except.bind_eq_ok_iff.mp h
  exact .cancellation hp (cancelWrites_come h)

theorem deed_of_planExpiry {reason : Option String} {now : Moment}
    (h : planExpiry reason now by' e = .ok w) : Deed by' e cs w none := by
  unfold planExpiry at h
  obtain ⟨_, hp, h⟩ := Except.bind_eq_ok_iff.mp h
  obtain ⟨deadline, hd, h⟩ := Except.bind_eq_ok_iff.mp h
  cases deadline with
  | none => cases h
  | some d =>
    obtain ⟨n, hn, h⟩ := Except.bind_eq_ok_iff.mp h
    split at h
    next hlt =>
      cases n with
      | none => simp at hlt
      | some n => exact .expiry hp hd hn (by simpa using hlt) (cancelWrites_come h)
    next => cases h

/-! ## Payments -/

variable {ask : SettleRequest → LedgerAnswer}

/-- A payment that goes through pays the seller, on the ledger and in the record. -/
theorem planPayout_paid {basis : ReleaseBasis}
    (h : ((planPayout e basis by').conclude ask).verdict = .ok ()) :
    ∃ b t, e.recipient? = some b ∧ (ask ⟨e.id, b⟩).result = .ok t ∧
      ((planPayout e basis by').conclude ask).asked = some ⟨e.id, b⟩ ∧
      ((planPayout e basis by').conclude ask).writes.Come none (some (.completion t))
        [paymentDraft by' e basis b t] (some (paymentNote b t)) := by
  unfold planPayout at h ⊢
  cases hm : move e .completed with
  | error f => simp [hm, Plan.refuse, Plan.conclude] at h
  | ok s =>
    simp only [hm] at h ⊢
    cases hb : e.recipient? with
    | none => simp [hb, Plan.refuse, Plan.conclude] at h
    | some b =>
      simp only [hb, Plan.conclude] at h ⊢
      cases ha : (ask ⟨e.id, b⟩).result with
      | ok t => exact ⟨b, t, rfl, ha, rfl, rfl, rfl, rfl, rfl⟩
      | error f =>
        rw [ha] at h
        split at h
        next t ht => cases ht
        next => cases h
        next => cases h

/-- A conclusion is a deed for which the ledger was asked exactly when it made a payment. -/
def Conclusion.IsDeed (k : Conclusion) (by' : Caller) (e : Escrow) (cs : List Condition)
    (ask : SettleRequest → LedgerAnswer) : Prop :=
  ∃ paid : Option (SettleRequest × String), Deed by' e cs k.writes paid ∧
    k.asked = paid.map (·.1) ∧ ∀ q ∈ paid, (ask q.1).result = .ok q.2

theorem isDeed_ofWrites {x : Except Failure Writes}
    (hd : ∀ w, x = .ok w → Deed by' e cs w none)
    (h : ((Plan.ofWrites x).conclude ask).verdict = .ok ()) :
    ((Plan.ofWrites x).conclude ask).IsDeed by' e cs ask := by
  obtain ⟨w, hx, hk⟩ := Plan.conclude_ofWrites h
  rw [hk]
  exact ⟨none, hd w hx, rfl, by simp⟩

/-- What a release needs beside the ledger: an active escrow that has not been released, and leave
to release it. -/
theorem planRelease_paid {manual : Bool} (hs : ¬(e.status = .completed ∨ e.released = true))
    (h : ((planRelease manual by' e cs).conclude ask).verdict = .ok ()) :
    e.status = .active ∧ permitRelease e cs manual by' = .ok () ∧
      planRelease manual by' e cs = planPayout e (.request manual) by' := by
  unfold planRelease at h ⊢
  rw [if_neg hs] at h ⊢
  by_cases ha : e.status = .active
  · cases hp : permitRelease e cs manual by' with
    | error f => simp [ha, hp, Plan.refuse, Plan.conclude] at h
    | ok _ => simp [ha]
  · simp [ha, Plan.refuse, Plan.conclude] at h

theorem isDeed_planRelease {manual : Bool}
    (h : ((planRelease manual by' e cs).conclude ask).verdict = .ok ()) :
    ((planRelease manual by' e cs).conclude ask).IsDeed by' e cs ask := by
  by_cases hs : e.status = .completed ∨ e.released = true
  · refine ⟨none, .releasedBefore hs ?_, ?_, by simp⟩
    · simp only [planRelease, if_pos hs]
      exact ⟨rfl, rfl, rfl, rfl⟩
    · simp only [planRelease, if_pos hs]
      rfl
  · obtain ⟨ha, hp, hplan⟩ := planRelease_paid hs h
    rw [hplan] at h ⊢
    obtain ⟨b, t, hb, hans, hasked, hw⟩ := planPayout_paid h
    have hn : e.released = false := by
      cases hr : e.released with
      | false => rfl
      | true => exact absurd (Or.inr hr) hs
    exact ⟨some (⟨e.id, b⟩, t), .release ha hn hp hb hw, hasked, by simpa using hans⟩

theorem isDeed_planResolution {resolution : Except UnknownWord Resolution} {note : Option String}
    (h : ((planResolution resolution note by' e).conclude ask).verdict = .ok ()) :
    ((planResolution resolution note by' e).conclude ask).IsDeed by' e cs ask := by
  unfold planResolution at h ⊢
  cases hp : permit e by'.user .resolveDispute with
  | error f => simp [hp, Plan.refuse, Plan.conclude] at h
  | ok _ =>
    simp only [hp] at h ⊢
    cases resolution with
    | error u => cases h
    | ok r =>
      obtain ⟨hk, hv⟩ := Plan.conclude_closing h
      rw [hk]
      cases r with
      | release =>
        obtain ⟨b, t, hb, hans, hasked, hw⟩ := planPayout_paid hv
        exact ⟨some (⟨e.id, b⟩, t), .decided hp hb (hw.loggedAfter ⟨rfl, rfl, rfl, rfl⟩), hasked,
          by simpa using hans⟩
      | refund =>
        obtain ⟨w, hx, hk'⟩ := Plan.conclude_ofWrites hv
        simp only [hk']
        exact ⟨none, .refund hp ((cancelWrites_come hx).loggedAfter ⟨rfl, rfl, rfl, rfl⟩), rfl,
          by simp⟩

/-- A task that goes through is a deed. -/
theorem Task.isDeed {t : Task} {now : Moment}
    (h : ((t.plan now by' e cs).conclude ask).verdict = .ok ()) :
    ((t.plan now by' e cs).conclude ask).IsDeed by' e cs ask := by
  cases t with
  | update r => exact isDeed_ofWrites (fun _ => deed_of_planUpdate) h
  | activate x => exact isDeed_ofWrites (fun _ => deed_of_planActivation) h
  | dispute r => exact isDeed_ofWrites (fun _ => deed_of_planDispute) h
  | release manual => exact isDeed_planRelease h
  | cancel r => exact isDeed_ofWrites (fun _ => deed_of_planCancellation) h
  | expire r n => exact isDeed_ofWrites (fun _ => deed_of_planExpiry) h
  | resolve r note => exact isDeed_planResolution h

/-! ## Confirmations -/

/-- The conditions once one of them counts as met. -/
theorem openConditions_met_eq_nil_iff {condition : Identifier} :
    openConditions (cs.map fun c => if c.id = condition then { c with met := true } else c) = [] ↔
      ∀ d ∈ cs, d.id ≠ condition → d.met = true := by
  unfold openConditions
  rw [List.filter_eq_nil_iff]
  constructor
  · intro h d hd hne
    have := h _ (List.mem_map_of_mem hd)
    simpa [hne] using this
  · intro h c hc
    obtain ⟨d, hd, rfl⟩ := List.mem_map.mp hc
    by_cases hdc : d.id = condition
    · simp [hdc]
    · simp [hdc, h d hd hdc]

/-- A confirmation that goes through is a deed. A record that is released is completed. -/
theorem isDeed_planConfirmation {condition : Identifier}
    (hr : e.released = true → e.status = .completed)
    (h : ((planConfirmation condition by' e cs).conclude ask).verdict = .ok ()) :
    ((planConfirmation condition by' e cs).conclude ask).IsDeed by' e cs ask := by
  unfold planConfirmation at h ⊢
  cases hf : cs.find? fun c => c.id = condition with
  | none => simp [hf, Plan.refuse, Plan.conclude] at h
  | some c =>
    have hc : c ∈ cs := List.mem_of_find?_eq_some hf
    have hid : c.id = condition := by simpa using List.find?_some hf
    subst hid
    simp only [hf] at h ⊢
    by_cases hm : c.met = true
    · simp only [if_pos hm] at h ⊢
      exact ⟨none, .metBefore hc hm ⟨rfl, rfl, rfl, rfl⟩, rfl, by simp⟩
    · have hm' : c.met = false := by simpa using hm
      simp only [if_neg hm] at h ⊢
      cases hp : permit e by'.user .confirmCondition with
      | error f => simp [hp, Plan.refuse, Plan.conclude] at h
      | ok _ =>
        have hs : e.status = .active := by
          rcases permit_eq_ok_iff.mp hp with hp | ⟨rs, hp, -⟩ <;>
            revert hp <;> cases e.status <;> simp [permission]
        simp only [hp] at h ⊢
        split at h
        next ho =>
          -- The last open condition: the release that follows finds nothing released.
          simp only [if_pos ho]
          rw [Plan.conclude_after] at h ⊢
          have hn : ¬(e.status = .completed ∨ e.released = true) := by
            rintro (h1 | h1)
            · rw [hs] at h1
              cases h1
            · rw [hs] at hr
              cases hr h1
          obtain ⟨-, -, hplan⟩ := planRelease_paid hn h
          rw [hplan] at h ⊢
          obtain ⟨b, t, hb, hans, hasked, hw⟩ := planPayout_paid h
          refine ⟨some (⟨e.id, b⟩, t), .lastConfirmation hc hm' hp hs ?_
            (openConditions_met_eq_nil_iff.mp ho) hb ?_, hasked, by simpa using hans⟩
          · simpa using fun h1 => hn (Or.inr h1)
          · refine ⟨?_, ?_, ?_, ?_⟩
            · simp [Writes.followedBy, hw.met_eq]
            · simp [Writes.followedBy, hw.patch_eq]
            · simp [Writes.followedBy, hw.drafts_eq, confirmationDraft]
            · simp [Writes.followedBy, hw.announcement_eq]
        next ho =>
          simp only [if_neg ho]
          refine ⟨none, .confirmation hc hm' hp ?_ ⟨rfl, rfl, rfl, rfl⟩, rfl, by simp⟩
          rw [openConditions_met_eq_nil_iff] at ho
          simpa using ho

/-! ## Plans that do not go through -/

/-- A plan that does not go through has nothing from the ledger. -/
theorem Plan.conclude_error_asked {p : Plan} {f : Failure} {r : SettleRequest}
    (h : (p.conclude ask).verdict = .error f) (hr : (p.conclude ask).asked = some r) :
    ∃ g, (ask r).result = .error g := by
  unfold Plan.conclude at h hr
  cases hn : p.next with
  | finish => simp [hn] at h
  | refuse g => simp [hn] at hr
  | payOut q paid =>
    simp only [hn] at h hr
    cases ha : (ask q).result with
    | ok t => simp [ha] at h
    | error g =>
      have hq : some q = some r := by
        rw [ha] at hr
        split at hr
        next t ht => cases ht
        next => exact hr
        next => exact hr
      cases hq
      exact ⟨g, ha⟩

end Custody

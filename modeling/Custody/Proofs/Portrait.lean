import Custody.Proofs.Chronicle
import Custody.Proofs.Confirmation

/-!
# The record as its log tells it

An operation writes its work down twice: into the record and the conditions of an escrow, and as
data of an event. Nothing compares the two later. `Portrait` is what a reader of the log alone can
know of the record; he begins with the terms that were given and takes one event after another.

> `Deed.retells`: the events of a deed tell what it did to the record.
> `Life.retold`: a log tells the record, and who met which condition.
> `log_reconstructs`: so does every log of a run, from the terms of the creation in that run.
-/

namespace Custody

/-! ## Portraits -/

/-- What an event is about, as its data have it. -/
def EventData.type? : EventData → Option EventType
  | .created .. => some .created
  | .updated .. => some .updated
  | .activated .. => some .activated
  | .disputed .. => some .disputed
  | .conditionMet .. => some .conditionMet
  | .completed .. => some .completed
  | .cancelled .. => some .cancelled
  | .expired .. => some .expired
  | .other _ => none

/-- What a log can tell of a record. The status is a word, as in the log. -/
structure Portrait where
  status : Option String
  title : String
  description : Option String
  deadline : Option Moment
  funding : Option String
  release : Option String

/-- The portrait of an escrow of which only the terms are known. -/
def Portrait.given (n : NewEscrow) : Portrait :=
  ⟨none, n.title.getD "", n.description, n.deadline, none, none⟩

/-- The portrait of a record. -/
def Escrow.portrait (e : Escrow) : Portrait :=
  ⟨some (word e.status), e.title, e.description, e.deadline, e.fundingTransaction,
    e.releaseTransaction⟩

/-- A portrait with a term changed. -/
def Portrait.change (p : Portrait) : Change → Portrait
  | .title t => { p with title := t }
  | .description d => { p with description := d }
  | .deadline m => { p with deadline := m }

/-- A portrait once an event is read. -/
def Portrait.tell (p : Portrait) (b : Event) : Portrait :=
  match b.data with
  | .updated changes => { changes.foldl change p with status := b.newStatus }
  | .activated t => { p with status := b.newStatus, funding := t }
  | .completed _ _ t => { p with status := b.newStatus, release := some t }
  | _ => { p with status := b.newStatus }

/-- A change is one if the term was another before, a deadline as the clock showed it. -/
def Change.Differs (p : Portrait) : Change → Prop
  | .title t => t ≠ p.title
  | .description d => d ≠ p.description
  | .deadline m => m ≠ p.deadline.map Moment.withoutOffset

/-- Events that can be read from a portrait on: every change of terms among them is made of
changes. -/
def Portrait.Readable (p : Portrait) : List Event → Prop
  | [] => True
  | b :: bs =>
    (∀ changes, b.data = .updated changes → changes ≠ [] ∧ ∀ c ∈ changes, c.Differs p) ∧
      (p.tell b).Readable bs

theorem Portrait.readable_append {p : Portrait} {as bs : List Event} :
    p.Readable (as ++ bs) ↔ p.Readable as ∧ (as.foldl tell p).Readable bs := by
  induction as generalizing p with
  | nil => simp [Readable]
  | cons a as ih => rw [List.cons_append, Readable, ih, Readable, List.foldl_cons, and_assoc]

theorem Portrait.portrait_terms (changes : List Change) (e : Escrow) :
    (changes.foldl Change.apply e).portrait = changes.foldl change e.portrait := by
  induction changes generalizing e with
  | nil => rfl
  | cons c rest ih =>
    rw [List.foldl_cons, ih, List.foldl_cons]
    cases c <;> rfl

section Deeds

variable {by' : Caller} {e : Escrow} {cs : List Condition} {w : Writes}
  {paid : Option (SettleRequest × String)}

/-- The new terms that are recorded differ from the old. -/
theorem differs_of_mem_changesOf {r : UpdateRequest} {c : Change} (h : c ∈ changesOf e.loaded r) :
    c.Differs e.portrait := by
  simp only [changesOf, List.mem_append] at h
  rcases h with (h | h) | h
  all_goals
    split at h
    next =>
      split at h
      next => cases h
      next hne =>
        rw [List.mem_singleton.mp h]
        exact hne
    next => cases h

theorem Writes.portrait_view {p : Patch} (hp : w.patch = some p) (now : Moment) :
    (w.view now e).portrait = (p.apply e).portrait := by
  rw [view, hp]
  rfl

/-- The events of a deed tell what it did to the record. -/
theorem Deed.retells (h : Deed by' e.loaded cs w paid) (now : Moment) (x : Identifier) (i k : Nat) :
    (enterDrafts now x i k w.drafts).foldl Portrait.tell e.portrait = (w.view now e).portrait := by
  cases h with
  | sameTerms _ hw | releasedBefore _ hw | metBefore _ _ hw | confirmation _ _ _ _ hw =>
    rw [hw.drafts_eq, Writes.view_of_none hw.patch_eq]
    rfl
  | terms _ _ hw =>
    rw [hw.drafts_eq, Writes.portrait_view hw.patch_eq, Patch.apply, Portrait.portrait_terms]
    show ({ List.foldl Portrait.change e.portrait _ with status := some (word e.status) } :
      Portrait) = _
    -- A change of terms is recorded with the status it found, and leaves it.
    rw [← Portrait.portrait_terms]
    obtain ⟨t, d, m, h⟩ := Writes.foldl_apply (changesOf e.loaded _) e
    rw [h]
    rfl
  | activation _ hw | dispute _ hw | cancellation _ hw | expiry _ _ _ _ hw | refund _ hw
  | decided _ _ hw | release _ _ _ _ hw | lastConfirmation _ _ _ _ _ _ _ hw =>
    rw [hw.drafts_eq, Writes.portrait_view hw.patch_eq]
    rfl

/-- The data of an event of a deed are of its type. -/
theorem Act.fits {d : EventDraft} (h : Act by' e cs w d) : d.data.type? = some d.type := by
  cases h <;> rfl

/-- An event of a confirmation is in the name of the user who is on record for it. -/
theorem Act.confirms_actor {d : EventDraft} (h : Act by' e cs w d) {k : Identifier}
    (hk : d.data.confirms k = true) : w.met = some (k, d.actor) := by
  cases h with
  | confirmed _ hm =>
    rw [hm, ← of_decide_eq_true hk]
    rfl
  | _ => cases hk

/-- An event of a payment names the seller. -/
theorem Act.recipient {d : EventDraft} (h : Act by' e cs w d) {basis : ReleaseBasis} {x t : String}
    (hd : d.data = .completed basis x t) : e.recipient? = some x := by
  cases h with
  | decided _ hb | released _ _ hb | followed _ _ _ hb =>
    cases hd
    exact hb
  | _ => cases hd

/-- The events of a deed can be read from the record it found. -/
theorem Deed.readable (h : Deed by' e.loaded cs w paid) (now : Moment) (x : Identifier)
    (i k : Nat) : e.portrait.Readable (enterDrafts now x i k w.drafts) := by
  cases h with
  | sameTerms _ hw | releasedBefore _ hw | metBefore _ _ hw =>
    rw [hw.drafts_eq]
    trivial
  | terms _ hc hw =>
    rw [hw.drafts_eq]
    refine ⟨fun changes h => ?_, trivial⟩
    cases h
    exact ⟨hc, fun c hm => differs_of_mem_changesOf hm⟩
  | activation _ hw | dispute _ hw | cancellation _ hw | expiry _ _ _ _ hw | refund _ hw
  | decided _ _ hw | release _ _ _ _ hw | confirmation _ _ _ _ hw =>
    rw [hw.drafts_eq]
    exact ⟨(fun changes h => nomatch h), trivial⟩
  | lastConfirmation _ _ _ _ _ _ _ hw =>
    rw [hw.drafts_eq]
    exact ⟨(fun changes h => nomatch h), (fun changes h => nomatch h), trivial⟩

end Deeds

/-! ## What a log tells of the transactions -/

namespace Portrait

variable {p : Portrait} {b : Event} {es : List Event}

theorem foldl_change (changes : List Change) (p : Portrait) :
    ∃ t d m, changes.foldl change p = { p with title := t, description := d, deadline := m } := by
  induction changes generalizing p with
  | nil => exact ⟨p.title, p.description, p.deadline, rfl⟩
  | cons c rest ih =>
    obtain ⟨t, d, m, h⟩ := ih (p.change c)
    refine ⟨t, d, m, ?_⟩
    rw [List.foldl_cons, h]
    cases c <;> rfl

/-- Only an activation tells of the funds. -/
theorem funding_tell (h : b.data.type? ≠ some .activated) : (p.tell b).funding = p.funding := by
  unfold tell
  cases hd : b.data with
  | activated t =>
    rw [hd] at h
    exact absurd rfl h
  | updated changes =>
    obtain ⟨t, d, m, hc⟩ := foldl_change changes p
    simp only [hc]
  | _ => rfl

/-- Only a completion tells of a release. -/
theorem release_tell (h : b.data.type? ≠ some .completed) : (p.tell b).release = p.release := by
  unfold tell
  cases hd : b.data with
  | completed basis x t =>
    rw [hd] at h
    exact absurd rfl h
  | updated changes =>
    obtain ⟨t, d, m, hc⟩ := foldl_change changes p
    simp only [hc]
  | _ => rfl

/-- What only events of one type tell of is as it was after events of other types. -/
theorem foldl_tell_of_ne {α : Type} {g : Portrait → α} {type : EventType}
    (hg : ∀ (p : Portrait) (b : Event), b.data.type? ≠ some type → g (p.tell b) = g p)
    (h : ∀ b ∈ es, b.data.type? ≠ some type) : g (es.foldl tell p) = g p := by
  induction es generalizing p with
  | nil => rfl
  | cons b es ih =>
    rw [List.foldl_cons, ih fun a ha => h a (List.mem_cons_of_mem _ ha),
      hg p b (h b (List.mem_cons_self ..))]

end Portrait

/-! ## What the log of a life tells -/

/-- What the log has on a condition: nothing while it is open, and otherwise one event, in the
name of the user who is on record for it. -/
inductive Attested (es : List Event) (c : Condition) : Prop
  | unmet (hm : c.met = false) (ht : c.metAt = none) (hu : c.metBy = none)
      (hl : es.filter (fun b => b.data.confirms c.id) = [])
  | met {b : Event} {now : Moment} (hm : c.met = true) (ht : c.metAt = some now)
      (hu : c.metBy = some b.actor) (hl : es.filter (fun b => b.data.confirms c.id) = [b])

section Lives

variable {by' : Caller} {n : NewEscrow} {e : Escrow} {cs : List Condition} {es : List Event}

/-- An escrow that is alive was given a title. -/
theorem Life.titled (h : Life by' n e cs es) : ∃ title, n.title = some title := by
  induction h with
  | created hn hf he hc =>
    exact Option.isSome_iff_exists.mp ((EscrowRow.fault?_eq_none_iff _).mp hf).1
  | deed h hd now i ih => exact ih

/-- Read from the terms that were given, the log tells the record. -/
theorem Life.portrait (h : Life by' n e cs es) :
    es.foldl Portrait.tell (.given n) = e.portrait := by
  induction h with
  | created hn hf he hc =>
    subst he
    rfl
  | deed h hd now i ih => rw [List.foldl_append, ih, hd.retells now]

/-- The data of an event are of its type. -/
theorem Life.fits (h : Life by' n e cs es) : ∀ b ∈ es, b.data.type? = some b.type := by
  refine h.forall_events (P := fun _ _ b => b.data.type? = some b.type) ?created ?kept ?entered
  case created => exact fun _ _ _ => rfl
  case kept => exact fun _ _ _ hb => hb
  case entered =>
    intro _ _ _ _ _ _ _ ha now i j
    exact ha.fits

/-- Every change of terms in the log is made of changes. -/
theorem Life.readable (h : Life by' n e cs es) : (Portrait.given n).Readable es := by
  induction h with
  | created hn hf he hc => exact ⟨(fun changes h => nomatch h), trivial⟩
  | deed h hd now i ih =>
    rw [Portrait.readable_append, h.portrait]
    exact ⟨ih, hd.readable now ..⟩

/-- Who was paid is the seller. -/
theorem Life.recipient (h : Life by' n e cs es) :
    ∀ b ∈ es, ∀ basis x t, b.data = .completed basis x t → e.recipient? = some x := by
  refine h.forall_events (P := fun e _ b => ∀ basis x t, b.data = .completed basis x t →
    e.recipient? = some x) ?created ?kept ?entered
  case created =>
    intro e cs _ now i basis x t hbx
    cases hbx
  case kept =>
    intro e cs who w paid hd now b hb basis x t hbx
    rw [Escrow.recipient?, (Writes.view_people ..).1]
    exact hb basis x t hbx
  case entered =>
    intro e cs es who w d _ ha now i j basis x t hbx
    rw [Escrow.recipient?, (Writes.view_people ..).1]
    exact ha.recipient hbx

theorem numberConditions_unmet {x : Identifier} {k : Nat} {l : List ConditionInput} {c : Condition}
    (h : c ∈ numberConditions x k l) : c.met = false ∧ c.metAt = none ∧ c.metBy = none := by
  induction l generalizing k with
  | nil => cases h
  | cons a rest ih =>
    rcases List.mem_cons.mp h with rfl | h
    · exact ⟨rfl, rfl, rfl⟩
    · exact ih h

/-- Writes that meet a condition put the user and the time on record. -/
theorem Writes.onCondition_hit {w : Writes} {c : Condition} {user : String}
    (hm : w.met = some (c.id, user)) (now : Moment) :
    w.onCondition now c = { c with met := true, metAt := some now, metBy := some user } := by
  simp [onCondition, hm]

/-- Writes that do not meet a condition leave it. -/
theorem Writes.onCondition_miss {w : Writes} {c : Condition}
    (hm : ¬w.met.any (fun m => m.1 = c.id) = true) (now : Moment) : w.onCondition now c = c := by
  unfold onCondition
  split
  next k user hw =>
    rw [if_neg]
    intro hck
    exact hm (by rw [hw]; exact decide_eq_true hck.symm)
  next => rfl

/-- After a deed the log still tells who met a condition, if it did before. -/
theorem Deed.attests {who : Caller} {w : Writes} {paid : Option (SettleRequest × String)}
    (h : Deed who e.loaded cs w paid) (ha : ∀ c ∈ cs, Attested es c) (now : Moment)
    (x : Identifier) (i k : Nat) {c : Condition} (hc : c ∈ cs) :
    Attested (es ++ enterDrafts now x i k w.drafts) (w.onCondition now c) := by
  have hcount : ((enterDrafts now x i k w.drafts).filter
      fun b => b.data.confirms c.id).length = if w.met.any (fun m => m.1 = c.id) then 1 else 0 :=
    (length_filter_enterDrafts (fun _ _ _ => rfl) ..).trans (h.confirms c.id)
  by_cases hit : w.met.any (fun m => m.1 = c.id) = true
  · -- The condition is met now. It was open before, so the log had nothing on it.
    obtain ⟨⟨y, user⟩, hm, hy⟩ := (Option.any_eq_true ..).mp hit
    obtain rfl : y = c.id := of_decide_eq_true hy
    have hnone : es.filter (fun b => b.data.confirms c.id) = [] := by
      obtain ⟨d, hdc, hid, hopen⟩ := h.met_open hm
      cases ha d hdc with
      | unmet _ _ _ hl => rwa [← show d.id = c.id from hid]
      | met hmet => exact absurd (hopen.symm.trans hmet) Bool.false_ne_true
    rw [if_pos hit] at hcount
    obtain ⟨b, hb⟩ := List.length_eq_one_iff.mp hcount
    obtain ⟨hbe, hbc⟩ := List.mem_filter.mp (hb ▸ List.mem_singleton.mpr rfl :
      b ∈ (enterDrafts now x i k w.drafts).filter fun b => b.data.confirms c.id)
    obtain ⟨d, hdm, i', j, rfl⟩ := mem_enterDrafts hbe
    have hactor := (h.act d hdm).confirms_actor hbc
    rw [hm] at hactor
    cases hactor
    rw [Writes.onCondition_hit hm]
    refine .met (b := d.entered now x i' j) rfl rfl rfl ?_
    rw [List.filter_append, hnone, List.nil_append, hb]
  · rw [if_neg hit] at hcount
    have hlog : (es ++ enterDrafts now x i k w.drafts).filter (fun b => b.data.confirms c.id) =
        es.filter fun b => b.data.confirms c.id := by
      rw [List.filter_append, List.length_eq_zero_iff.mp hcount, List.append_nil]
    rw [Writes.onCondition_miss hit]
    cases ha c hc with
    | unmet hm ht hu hl => exact .unmet hm ht hu (hlog.trans hl)
    | met hm ht hu hl => exact .met hm ht hu (hlog.trans hl)

/-- The log tells who met a condition. -/
theorem Life.attested (h : Life by' n e cs es) : ∀ c ∈ cs, Attested es c := by
  induction h with
  | created hn hf he hc =>
    intro c hcm
    rw [hc] at hcm
    obtain ⟨hm, ht, hu⟩ := numberConditions_unmet hcm
    exact .unmet hm ht hu rfl
  | deed h hd now i ih =>
    intro c' hc'
    obtain ⟨c, hc, rfl⟩ := List.mem_map.mp hc'
    exact hd.attests ih now _ i _ hc

/-- What only events of one type tell of is as it was given while there are none. -/
theorem Life.untold (h : Life by' n e cs es) {α : Type} {g : Portrait → α} {type : EventType}
    (hg : ∀ (p : Portrait) (b : Event), b.data.type? ≠ some type → g (p.tell b) = g p)
    (hes : ∀ b ∈ es, b.type ≠ type) : g e.portrait = g (.given n) := by
  rw [← h.portrait]
  refine Portrait.foldl_tell_of_ne hg fun b hb hd => hes b hb ?_
  exact Option.some.inj ((h.fits b hb).symm.trans hd)

/-- What only an event of a type that happens once tells of is as that event tells it. -/
theorem Life.told (h : Life by' n e cs es) {α : Type} {g : Portrait → α} {b : Event} (hb : b ∈ es)
    {f : Status → Bool} (hf : b.type.Leaves f) (hc : b.type ≠ .created)
    (hg : ∀ (p : Portrait) (a : Event), a.data.type? ≠ some b.type → g (p.tell a) = g p) :
    ∃ p : Portrait, g e.portrait = g (p.tell b) := by
  obtain ⟨front, rest, rfl⟩ := List.append_of_mem hb
  -- The event comes once, so those behind it tell nothing of this.
  refine ⟨front.foldl Portrait.tell (.given n), ?_⟩
  rw [← h.portrait, List.foldl_append, List.foldl_cons]
  refine Portrait.foldl_tell_of_ne hg fun a ha hd => h.type_ne_of_split hf hc a ha ?_
  have hfit := h.fits a (List.mem_append_right _ (List.mem_cons_of_mem _ ha))
  exact Option.some.inj (hfit.symm.trans hd)

/-- The record of the funds is what the activation tells of them. -/
theorem Life.funding (h : Life by' n e cs es) :
    (∀ b ∈ es, b.type = .activated → b.data = .activated e.fundingTransaction) ∧
      ((∀ b ∈ es, b.type ≠ .activated) → e.fundingTransaction = none) := by
  refine ⟨fun b hb ht => ?_, fun hes => h.untold (fun _ _ => Portrait.funding_tell) hes⟩
  have hfit := h.fits b hb
  obtain ⟨p, hp⟩ := h.told (g := Portrait.funding) hb (by rw [ht]; exact EventType.activated_leaves)
    (by rw [ht]; decide) (by rw [ht]; exact fun _ _ => Portrait.funding_tell)
  rw [ht] at hfit
  have hp : e.fundingTransaction = (p.tell b).funding := hp
  cases hd : b.data with
  | activated t => rw [hp, Portrait.tell, hd]
  | _ =>
    rw [hd] at hfit
    cases hfit

/-- The record of the release is what the completion tells of it. -/
theorem Life.release (h : Life by' n e cs es) :
    (∀ b ∈ es, b.type = .completed → ∃ basis x t, b.data = .completed basis x t ∧
      e.releaseTransaction = some t ∧ e.recipient? = some x) ∧
      ((∀ b ∈ es, b.type ≠ .completed) → e.releaseTransaction = none) := by
  refine ⟨fun b hb ht => ?_, fun hes => h.untold (fun _ _ => Portrait.release_tell) hes⟩
  have hfit := h.fits b hb
  obtain ⟨p, hp⟩ := h.told (g := Portrait.release) hb (by rw [ht]; exact EventType.completed_leaves)
    (by rw [ht]; decide) (by rw [ht]; exact fun _ _ => Portrait.release_tell)
  rw [ht] at hfit
  have hp : e.releaseTransaction = (p.tell b).release := hp
  cases hd : b.data with
  | completed basis x t =>
    exact ⟨basis, x, t, rfl, by rw [hp, Portrait.tell, hd], h.recipient b hb basis x t hd⟩
  | _ =>
    rw [hd] at hfit
    cases hfit

/-- The record of a life is sound. -/
theorem Life.sound (h : Life by' n e cs es) : e.Sound := by
  induction h with
  | created hn hf he hc =>
    subst he
    exact NewEscrow.record_sound hn hf _ _
  | deed h hd now i ih => exact hd.view_sound ih now

end Lives

/-! ## What the log of a run tells -/

/-- What the log of an escrow that was created on some terms tells of its record and its
conditions. -/
structure Retold (n : NewEscrow) (e : Escrow) (cs : List Condition) (es : List Event) : Prop where
  /-- The terms were given with a title. -/
  titled : ∃ title, n.title = some title
  /-- Read from the terms on, the events tell the record. -/
  portrait : es.foldl Portrait.tell (.given n) = e.portrait
  /-- The last event has the status. -/
  status : ∃ b, es.getLast? = some b ∧ b.newStatus = some (word e.status)
  /-- The data of an event are of its type. -/
  fits : ∀ b ∈ es, b.data.type? = some b.type
  /-- A change of terms has changes, and each is one from what the events before it tell. -/
  updates : ∀ front b rest, es = front ++ b :: rest → b.type = .updated →
    ∃ changes, b.data = .updated changes ∧ changes ≠ [] ∧
      ∀ c ∈ changes, c.Differs (front.foldl Portrait.tell (.given n))
  /-- The funds came in the transaction of the activation. -/
  funding : (∀ b ∈ es, b.type = .activated → b.data = .activated e.fundingTransaction) ∧
    ((∀ b ∈ es, b.type ≠ .activated) → e.fundingTransaction = none)
  /-- They left in the transaction of the completion, to the seller. -/
  release : (∀ b ∈ es, b.type = .completed → ∃ basis x t, b.data = .completed basis x t ∧
      e.releaseTransaction = some t ∧ ∀ u, ⟨u, .seller⟩ ∈ e.parties ↔ u = x) ∧
    ((∀ b ∈ es, b.type ≠ .completed) → e.releaseTransaction = none)
  /-- A condition is met if the log tells so once, by the user it names, and then it has a time. -/
  conditions : ∀ c ∈ cs,
    (c.met = true ↔
      ∃ b, es.filter (fun b => b.type = .conditionMet ∧ b.data.confirms c.id) = [b]) ∧
    (∀ b ∈ es, b.type = .conditionMet → b.data.confirms c.id = true → c.metBy = some b.actor) ∧
    (c.metAt.isSome = true ↔ c.met = true)

section Lives

variable {by' : Caller} {n : NewEscrow} {e : Escrow} {cs : List Condition} {es : List Event}

theorem type_of_confirms {b : Event} {k : Identifier} (h : b.data.type? = some b.type)
    (hk : b.data.confirms k = true) : b.type = .conditionMet := by
  cases hd : b.data with
  | conditionMet c d =>
    rw [hd] at h
    exact (Option.some.inj h).symm
  | _ =>
    rw [hd] at hk
    cases hk

/-- Who met a condition, read by the type of the events. -/
theorem Attested.read (hfits : ∀ b ∈ es, b.data.type? = some b.type) {c : Condition}
    (h : Attested es c) :
    (c.met = true ↔
      ∃ b, es.filter (fun b => b.type = .conditionMet ∧ b.data.confirms c.id) = [b]) ∧
    (∀ b ∈ es, b.type = .conditionMet → b.data.confirms c.id = true → c.metBy = some b.actor) ∧
    (c.metAt.isSome = true ↔ c.met = true) := by
  -- The data of an event settle its type, so it need not be asked for.
  have hread : es.filter (fun b => b.type = .conditionMet ∧ b.data.confirms c.id) =
      es.filter fun b => b.data.confirms c.id := by
    refine List.filter_congr fun b hb => ?_
    rw [Bool.eq_iff_iff, decide_eq_true_iff]
    exact ⟨And.right, fun hk => ⟨type_of_confirms (hfits b hb) hk, hk⟩⟩
  rw [hread]
  cases h with
  | unmet hm ht hu hl =>
    refine ⟨⟨fun h => absurd (hm.symm.trans h) Bool.false_ne_true, ?_⟩, ?_, by rw [ht, hm]; simp⟩
    · rintro ⟨b, hb⟩
      rw [hl] at hb
      cases hb
    · intro b hb _ hk
      exact absurd hk (List.filter_eq_nil_iff.mp hl b hb)
  | @met b now hm ht hu hl =>
    refine ⟨⟨fun _ => ⟨b, hl⟩, fun _ => hm⟩, ?_, by rw [ht, hm]; simp⟩
    intro a ha _ hk
    have hmem : a ∈ es.filter fun b => b.data.confirms c.id := List.mem_filter.mpr ⟨ha, hk⟩
    rw [hl] at hmem
    rw [List.mem_singleton.mp hmem]
    exact hu

/-- The log of a life tells the record and the conditions. -/
theorem Life.retold (h : Life by' n e cs es) : Retold n e cs es := by
  constructor
  case titled => exact h.titled
  case portrait => exact h.portrait
  case status => exact h.chronicle.last
  case fits => exact h.fits
  case updates =>
    rintro front b rest rfl ht
    have hfit := h.fits b (List.mem_append_right _ (List.mem_cons_self ..))
    have hread := (Portrait.readable_append.mp h.readable).2.1
    rw [ht] at hfit
    cases hd : b.data with
    | updated changes => exact ⟨changes, rfl, hread changes hd⟩
    | _ =>
      rw [hd] at hfit
      cases hfit
  case funding => exact h.funding
  case release =>
    refine ⟨fun b hb ht => ?_, h.release.2⟩
    obtain ⟨basis, x, t, hd, hr, hx⟩ := h.release.1 b hb ht
    have hseller := Escrow.mem_parties_of_recipient? hx
    exact ⟨basis, x, t, hd, hr, fun u => ⟨fun hu => h.sound.seller_unique hu hseller,
      fun hu => hu ▸ hseller⟩⟩
  case conditions => exact fun c hc => (h.attested c hc).read h.fits

end Lives

section Runs

variable {clock : Int} {settings : Settings} {dispatcher : Dispatcher} {lease : Option Lease}
  {hs : List Happening}

/-- After every run each escrow was created in it, on terms from which its log tells its record
and who met its conditions. -/
theorem log_reconstructs {e : Escrow}
    (he : e ∈ ((Service.start clock settings dispatcher lease).run hs).store.escrows) :
    ∃ v by' n e₀, Did (Service.start clock settings dispatcher lease) hs v by' (.create n) ∧
      (v.perform by' (.create n)).1 = .ok (.escrow e₀) ∧ e₀.id = e.id ∧
      Retold n e
        (((Service.start clock settings dispatcher lease).run hs).store.conditionsOf e.id)
        (((Service.start clock settings dispatcher lease).run hs).store.eventsOf e.id) := by
  obtain ⟨v, by', n, e₀, hdid, hanswer, hid, hl⟩ := Service.lives he
  rw [((Reachable.start clock settings dispatcher lease).run hs).eventsOf_eq_logOf]
  exact ⟨v, by', n, e₀, hdid, hanswer, hid, hl.retold⟩

end Runs

/-- A service with a sale that got a better title, was funded and is half done. -/
def retitledService : Service :=
  (Service.start 0 Settings.usual .recorder none).run
    [.operation ⟨"buyer", none⟩ (.create sale),
      .operation ⟨"buyer", none⟩
        (.task (Identifier.escrow 1) (.update ⟨some (some "Red bicycle"), none, none⟩)),
      .operation ⟨"buyer", none⟩ (.task (Identifier.escrow 1) (.activate (some "funds"))),
      .operation ⟨"seller", none⟩ (.confirm (Identifier.condition 2))]

/-- The log of the sale tells of its title. -/
theorem log_reconstructs_retitledService :
    ∃ e ∈ retitledService.store.escrows, e.title = "Red bicycle" ∧ e.status = .active ∧
      ∃ n, Retold n e (retitledService.store.conditionsOf e.id)
        (retitledService.store.eventsOf e.id) := by
  have hrecord : ("Red bicycle", .active) ∈
      retitledService.store.escrows.map (fun e => (e.title, e.status)) := by
    decide +kernel
  obtain ⟨e, he, hboth⟩ := List.mem_map.mp hrecord
  obtain ⟨htitle, hstatus⟩ := Prod.mk.inj hboth
  obtain ⟨-, -, n, -, -, -, -, h⟩ := log_reconstructs he
  exact ⟨e, he, htitle, hstatus, n, h⟩

end Custody

import Custody.Proofs.Progress
import Custody.Proofs.Warrant

/-!
# Parties and terms

Who takes part in an escrow is judged once, from a list that anybody may write, and what it is about
is written once. Everything later rests on both: who may do what, and who is paid. So the list must
come out right, and nothing that happens may touch it again.

A change of terms and an activation are known by the events that they enter, and an event of its
type by the operation that recorded it; this is how a changed record is traced to who asked for it.

> `Life.formed`: the parties of an escrow are one buyer, at most one seller, and nobody twice.
> `Reachable.lasts_after`: what a step leaves as it was, and what it can only change by an update or
> an activation of a pending escrow.
> `terms_frozen`: so it is with every escrow in every run.
-/

namespace Custody

/-! ## Parties -/

section Parties

variable {creator : String} {entries : List PartyInput} {ps : List Party}

theorem firstRepeated_eq_none_iff {l : List PartyInput} : firstRepeated l = none ↔ l.Nodup := by
  induction l with
  | nil => simp [firstRepeated]
  | cons p l ih =>
    rw [firstRepeated, List.nodup_cons]
    by_cases hp : p ∈ l
    · simp [hp]
    · simp [hp, ih]

/-- The creator is the only buyer of a new escrow. -/
theorem formParties_buyers (h : formParties creator entries = .ok ps) :
    ps.filter (fun p => p.role = .buyer) = [⟨creator, .buyer⟩] := by
  obtain ⟨-, -, -, rfl⟩ := formParties_inv h
  rw [List.filter_cons_of_pos (by simp), List.filter_map, List.filter_filter,
    List.filter_eq_nil_iff.mpr (by simp), List.map_nil]

/-- The creator does not sell. -/
theorem formParties_apart (h : formParties creator entries = .ok ps) :
    ⟨creator, .seller⟩ ∉ ps := by
  obtain ⟨hgood, -, -, rfl⟩ := formParties_inv h
  intro hmem
  rcases List.mem_cons.mp hmem with hbuyer | hmem
  · cases hbuyer
  · obtain ⟨p, hp, hps⟩ := List.mem_map.mp hmem
    obtain ⟨rfl, hrole⟩ := Party.mk.inj hps
    have hfault := hgood p (List.mem_filter.mp hp).1
    simp [roleFault?, hrole] at hfault

/-- Nobody has a role twice. -/
theorem formParties_nodup (h : formParties creator entries = .ok ps) : ps.Nodup := by
  obtain ⟨-, honce, -, rfl⟩ := formParties_inv h
  refine List.nodup_cons.mpr ⟨fun hmem => ?_, ?_⟩
  · obtain ⟨p, hp, hpb⟩ := List.mem_map.mp hmem
    have hne : p.role ≠ .buyer := of_decide_eq_true (List.mem_filter.mp hp).2
    exact hne (congrArg Party.role hpb)
  · refine (firstRepeated_eq_none_iff.mp honce).map fun p q hpq => ?_
    obtain ⟨huser, hrole⟩ := Party.mk.inj hpq
    cases p
    cases q
    simp_all

/-- With one seller at most it does not matter in which order the parties are looked through. -/
theorem recipient?_perm {qs : List Party} (h : ps.Perm qs)
    (hone : (qs.filter fun p => p.role = .seller).length ≤ 1) :
    recipient? ps = recipient? qs := by
  have hperm := h.filter fun p => p.role = .seller
  have heq : ps.filter (fun p => p.role = .seller) = qs.filter fun p => p.role = .seller := by
    generalize ps.filter (fun p => decide (p.role = .seller)) = as at hperm ⊢
    generalize qs.filter (fun p => decide (p.role = .seller)) = bs at hperm hone ⊢
    match bs, hone with
    | [], _ => exact hperm.eq_nil
    | [b], _ => exact hperm.eq_singleton
  rw [recipient?, recipient?, ← List.head?_filter, ← List.head?_filter, heq]

end Parties

/-- What holds of the parties of an escrow with these conditions: its creator is the buyer and nobody
else is, there is at most one seller, and that is another one, nobody has a role twice, and where
there are conditions there is somebody to pay. Who is paid does not depend on the order in which
the parties come. -/
structure Escrow.Formed (e : Escrow) (cs : List Condition) : Prop where
  buyer : e.parties.filter (fun p => p.role = .buyer) = [⟨e.creator, .buyer⟩]
  seller : (e.parties.filter fun p => p.role = .seller).length ≤ 1
  apart : ⟨e.creator, .seller⟩ ∉ e.parties
  nodup : e.parties.Nodup
  sold : cs ≠ [] → ∃ u, ⟨u, .seller⟩ ∈ e.parties
  recipient : ∀ ps : List Party, ps.Perm e.parties → Custody.recipient? ps = e.recipient?

/-- The parties of an escrow are as its creation formed them. -/
theorem Life.formed {by' : Caller} {n : NewEscrow} {e : Escrow} {cs : List Condition}
    {es : List Event} (h : Life by' n e cs es) : e.Formed cs := by
  have hpeople : e.parties.filter (fun p => p.role = .buyer) = [⟨e.creator, .buyer⟩] ∧
      ⟨e.creator, .seller⟩ ∉ e.parties ∧ e.parties.Nodup := by
    induction h with
    | created hn hf he hc =>
      subst he
      have hform := NewEscrow.define_formed hn
      exact ⟨formParties_buyers hform, formParties_apart hform, formParties_nodup hform⟩
    | @deed e cs es who w paid h hd now i ih =>
      obtain ⟨hparties, hcreator⟩ := Writes.view_people w now e
      rw [hparties, hcreator]
      exact ih
  obtain ⟨hbuyer, hapart, hnodup⟩ := hpeople
  refine ⟨hbuyer, h.sound.seller, hapart, hnodup, fun hcs => ?_,
    fun ps hps => recipient?_perm hps h.sound.seller⟩
  obtain ⟨u, hu⟩ := h.seller hcs
  exact ⟨u, Escrow.mem_parties_of_recipient? hu⟩

/-! ## What lasts -/

/-- What a later record of an escrow has in common with this one. -/
structure Escrow.Lasts (e e' : Escrow) : Prop where
  id : e'.id = e.id
  amount : e'.amount = e.amount
  asset : e'.asset = e.asset
  type : e'.type = e.type
  creator : e'.creator = e.creator
  createdAt : e'.createdAt = e.createdAt
  parties : e'.parties = e.parties

/-- What a later state of a condition has in common with this one: what it is about, and once it is
met also by whom and when. -/
structure Condition.Lasts (c c' : Condition) : Prop where
  id : c'.id = c.id
  escrow : c'.escrow = c.escrow
  description : c'.description = c.description
  type : c'.type = c.type
  metadata : c'.metadata = c.metadata
  met : c.met = true → c'.met = true ∧ c'.metAt = c.metAt ∧ c'.metBy = c.metBy

/-- The terms that its creator may change while an escrow is pending. -/
def Escrow.terms (e : Escrow) : String × Option String × Option Moment :=
  (e.title, e.description, e.deadline)

namespace Escrow.Lasts

theorem refl (e : Escrow) : e.Lasts e := ⟨rfl, rfl, rfl, rfl, rfl, rfl, rfl⟩

theorem trans {a b c : Escrow} (h : a.Lasts b) (h' : b.Lasts c) : a.Lasts c :=
  ⟨h'.id.trans h.id, h'.amount.trans h.amount, h'.asset.trans h.asset, h'.type.trans h.type,
    h'.creator.trans h.creator, h'.createdAt.trans h.createdAt, h'.parties.trans h.parties⟩

end Escrow.Lasts

namespace Condition.Lasts

theorem refl (c : Condition) : c.Lasts c := ⟨rfl, rfl, rfl, rfl, rfl, fun h => ⟨h, rfl, rfl⟩⟩

theorem trans {a b c : Condition} (h : a.Lasts b) (h' : b.Lasts c) : a.Lasts c := by
  refine ⟨h'.id.trans h.id, h'.escrow.trans h.escrow, h'.description.trans h.description,
    h'.type.trans h.type, h'.metadata.trans h.metadata, fun ha => ?_⟩
  obtain ⟨hb, hbat, hbby⟩ := h.met ha
  obtain ⟨hc, hcat, hcby⟩ := h'.met hb
  exact ⟨hc, hcat.trans hbat, hcby.trans hbby⟩

/-- Of the conditions of an escrow each lasts, and none comes or goes. -/
theorem all_refl (cs : List Condition) : List.Forall₂ Lasts cs cs :=
  List.forall₂_same.mpr fun c _ => refl c

theorem all_trans {as bs cs : List Condition} (h : List.Forall₂ Lasts as bs)
    (h' : List.Forall₂ Lasts bs cs) : List.Forall₂ Lasts as cs := by
  induction h generalizing cs with
  | nil => exact h'
  | cons hab _ ih =>
    cases h' with
    | cons hbc hrest => exact .cons (hab.trans hbc) (ih hrest)

end Condition.Lasts

section Deeds

variable {by' : Caller} {e : Escrow} {cs : List Condition} {w : Writes}
  {paid : Option (SettleRequest × String)}

/-- Writes leave everything of a record but its terms and its state. -/
theorem Writes.lasts_view (w : Writes) (now : Moment) (e : Escrow) : e.Lasts (w.view now e) := by
  unfold view
  split
  next p _ =>
    cases p with
    | terms changes =>
      obtain ⟨t, d, m, h⟩ := foldl_apply changes e
      simp only [Patch.applyAt, Patch.apply, h]
      exact ⟨rfl, rfl, rfl, rfl, rfl, rfl, rfl⟩
    | _ => exact ⟨rfl, rfl, rfl, rfl, rfl, rfl, rfl⟩
  next => exact .refl e

/-- A deed meets no condition again, and leaves what a condition is about. -/
theorem Deed.lasts_onCondition (h : Deed by' e cs w paid) (hn : (cs.map (·.id)).Nodup)
    {c : Condition} (hc : c ∈ cs) (now : Moment) : c.Lasts (w.onCondition now c) := by
  by_cases hit : w.met.any (fun m => m.1 = c.id) = true
  · obtain ⟨⟨k, user⟩, hm, hk⟩ := (Option.any_eq_true ..).mp hit
    obtain rfl : k = c.id := of_decide_eq_true hk
    obtain ⟨d, hd, hid, hopen⟩ := h.met_open hm
    obtain rfl : d = c := List.inj_on_of_nodup_map hn hd hc hid
    rw [Writes.onCondition_hit hm]
    exact ⟨rfl, rfl, rfl, rfl, rfl, fun hmet => absurd (hopen.symm.trans hmet) Bool.false_ne_true⟩
  · rw [Writes.onCondition_miss hit]
    exact .refl c

/-- The event that tells of a change to a pending escrow. The other changes are of its state. -/
def Patch.preparation? : Patch → Option EventType
  | .terms _ => some .updated
  | .activation _ => some .activated
  | .dispute | .completion _ | .cancellation => none

/-- A deed that changes more than the state of an escrow enters an event that tells so, and found the
escrow pending. -/
theorem Deed.pending_of_preparation (h : Deed by' e cs w paid) {p : Patch} {type : EventType}
    (hp : w.patch = some p) (ht : p.preparation? = some type) :
    e.status = .pending ∧ ∃ d, w.drafts = [d] ∧ d.type = type := by
  cases h with
  | sameTerms _ hw | releasedBefore _ hw | metBefore _ _ hw | confirmation _ _ _ _ hw =>
    rw [hw.patch_eq] at hp
    cases hp
  | terms hperm _ hw | activation hperm hw =>
    rw [hw.patch_eq] at hp
    cases hp
    cases ht
    exact ⟨status_of_permit hperm fun t => by cases t <;> simp [permission], _, hw.drafts_eq, rfl⟩
  | dispute _ hw | cancellation _ hw | expiry _ _ _ _ hw | refund _ hw | decided _ _ hw
  | release _ _ _ _ hw | lastConfirmation _ _ _ _ _ _ _ hw =>
    rw [hw.patch_eq] at hp
    cases hp
    cases ht

/-- Only a change of terms changes the terms. -/
theorem Writes.terms_changed {now : Moment} (h : (w.view now e).terms ≠ e.terms) :
    ∃ p, w.patch = some p ∧ p.preparation? = some .updated := by
  cases hp : w.patch with
  | none => exact absurd (congrArg Escrow.terms (view_of_none hp now)) h
  | some p =>
    refine ⟨p, rfl, ?_⟩
    rw [view, hp] at h
    cases p with
    | terms => rfl
    | _ => exact absurd rfl h

/-- Only an activation changes what is on record of the funds. -/
theorem Writes.funding_changed {now : Moment}
    (h : (w.view now e).fundingTransaction ≠ e.fundingTransaction) :
    ∃ p, w.patch = some p ∧ p.preparation? = some .activated := by
  cases hp : w.patch with
  | none => exact absurd (congrArg Escrow.fundingTransaction (view_of_none hp now)) h
  | some p =>
    refine ⟨p, rfl, ?_⟩
    rw [view, hp] at h
    cases p with
    | activation => rfl
    | terms changes =>
      obtain ⟨t, d, m, hfold⟩ := foldl_apply changes e
      simp only [Patch.applyAt, Patch.apply, hfold] at h
      exact absurd rfl h
    | _ => exact absurd rfl h

end Deeds

/-! ## Steps -/

section Steps

variable {v : Service} {e e' : Escrow}

/-- A deed that enters an event of a type is done by a task on that escrow, if only tasks record
events of the type. -/
theorem Service.task_of_entered {by' : Caller} {op : Operation} {now : Moment} {i : Nat}
    {d : EventDraft} (hl : (v.perform by' op).2.1.store.logOf e.id =
      v.store.logOf e.id ++ enterDrafts now e.id i (v.store.nextSequence e.id) [d])
    (hd : d.type = .updated ∨ d.type = .activated) :
    ∃ t, op = .task e.id t ∧ d.type ∈ t.entries := by
  have hmem : d.entered now e.id i (v.store.nextSequence e.id) ∈
      (v.perform by' op).2.1.store.events := by
    refine (Store.mem_logOf (x := e.id)).mp ?_ |>.1
    rw [hl]
    exact List.mem_append_right _ (List.mem_singleton.mpr rfl)
  -- The number of the event is larger than any that the escrow had.
  have hnew : d.entered now e.id i (v.store.nextSequence e.id) ∉ v.store.events :=
    fun hold => absurd (Store.nextSequence_gt hold rfl) (Nat.lt_irrefl _)
  have htype : d.type ∈ op.entries := Service.type_mem_entries hmem hnew
  cases op with
  | create n =>
    have hcreated : d.type = .created := List.mem_singleton.mp htype
    rcases hd with hd | hd <;> rw [hd] at hcreated <;> cases hcreated
  | confirm k =>
    rcases hd with hd | hd <;> rw [hd] at htype <;> simp [Operation.entries] at htype
  | task x t =>
    obtain ⟨-, -, -, d', -, i', j, heq⟩ := Service.entered hmem hnew
    have hx : e.id = x := congrArg Event.escrow heq
    exact ⟨t, by rw [hx], htype⟩

/-- What a happening can have made of an escrow and its conditions: of who and what they are about
nothing, of the terms something only as an update of a pending escrow, and of the funds only as
its activation. -/
structure Happening.Leaves (a : Happening) (e e' : Escrow) (cs cs' : List Condition) : Prop where
  escrow : e.Lasts e'
  conditions : List.Forall₂ Condition.Lasts cs cs'
  terms : e'.terms ≠ e.terms →
    e.status = .pending ∧ ∃ by' r, a = .operation by' (.task e.id (.update r))
  funding : e'.fundingTransaction ≠ e.fundingTransaction →
    e.status = .pending ∧ ∃ by' t, a = .operation by' (.task e.id (.activate t))

/-- Where nothing happens to an escrow everything is left as it is. -/
theorem Happening.Leaves.refl (a : Happening) (e : Escrow) (cs : List Condition) :
    a.Leaves e e cs cs :=
  ⟨.refl e, Condition.Lasts.all_refl cs, (fun h => absurd rfl h), (fun h => absurd rfl h)⟩

/-- What happens leaves an escrow as it is but for a change that is asked for while it is pending. -/
theorem Reachable.lasts_after (hv : Reachable v) (he : e ∈ v.store.escrows) (a : Happening) :
    ∃ e' ∈ (v.after a).store.escrows, a.Leaves e e' (v.store.conditionsOf e.id)
      ((v.after a).store.conditionsOf e.id) := by
  cases a with
  | operation by' op =>
    obtain ⟨e', he', hid, hturned⟩ :=
      (Service.perform_effect hv.kept.sound by' op).exists_turned hv.kept he
    refine ⟨e', he', ?_⟩
    -- What changes terms or funding enters an event of its type, and that tells which task it was.
    cases hturned with
    | untouched hc hl =>
      have hc : (v.after (.operation by' op)).store.conditionsOf e.id =
        v.store.conditionsOf e.id := hc
      rw [hc]
      exact .refl ..
    | @deed w paid i hd hc hl =>
      have hnodup := Store.nodup_conditionsOf hv.kept.conditionsDistinct e.id
      constructor
      case escrow => exact w.lasts_view v.now e
      case conditions =>
        have hc : (v.after (.operation by' op)).store.conditionsOf e.id =
          (v.store.conditionsOf e.id).map (w.onCondition v.now) := hc
        rw [hc, List.forall₂_map_right_iff]
        exact List.forall₂_same.mpr fun c hcm => hd.lasts_onCondition hnodup hcm v.now
      case terms =>
        intro hne
        obtain ⟨p, hp, hprep⟩ := Writes.terms_changed hne
        obtain ⟨hs, d, hdrafts, htype⟩ := hd.pending_of_preparation hp hprep
        rw [hdrafts] at hl
        obtain ⟨t, rfl, ht⟩ := Service.task_of_entered hl (.inl htype)
        rw [htype] at ht
        cases t with
        | update r => exact ⟨hs, by', r, rfl⟩
        | _ => simp [Task.entries] at ht
      case funding =>
        intro hne
        obtain ⟨p, hp, hprep⟩ := Writes.funding_changed hne
        obtain ⟨hs, d, hdrafts, htype⟩ := hd.pending_of_preparation hp hprep
        rw [hdrafts] at hl
        obtain ⟨t, rfl, ht⟩ := Service.task_of_entered hl (.inr htype)
        rw [htype] at ht
        cases t with
        | activate x => exact ⟨hs, by', x, rfl⟩
        | _ => simp [Task.entries] at ht
  | _ => exact ⟨e, he, .refl ..⟩

/-- What lasts from one step to the next lasts through a run. -/
theorem Reachable.lasts_run (hv : Reachable v) (he : e ∈ v.store.escrows) (hs : List Happening) :
    ∃ e' ∈ (v.run hs).store.escrows, e.Lasts e' ∧
      List.Forall₂ Condition.Lasts (v.store.conditionsOf e.id)
        ((v.run hs).store.conditionsOf e.id) := by
  induction hs generalizing v e with
  | nil => exact ⟨e, he, .refl e, Condition.Lasts.all_refl _⟩
  | cons a hs ih =>
    obtain ⟨d, hd, hstep⟩ := hv.lasts_after he a
    obtain ⟨e', he', hrest, hconditions⟩ := ih (hv.step a) hd
    rw [hstep.escrow.id] at hconditions
    exact ⟨e', he', hstep.escrow.trans hrest, Condition.Lasts.all_trans hstep.conditions hconditions⟩

end Steps

/-- After every run the parties of an escrow are well formed. Whatever happens next leaves who and
what it is about and each of its conditions, also who met it and when, and what is changed beside
that was asked for while the escrow was pending; and so it goes on through every run. -/
theorem terms_frozen {v : Service} (hv : Reachable v) {e : Escrow} (he : e ∈ v.store.escrows) :
    e.Formed (v.store.conditionsOf e.id) ∧
      (∀ a : Happening, ∃ e', (v.after a).store.stored? e.id = some e' ∧
        a.Leaves e e' (v.store.conditionsOf e.id) ((v.after a).store.conditionsOf e.id)) ∧
      ∀ hs : List Happening, ∃ e', (v.run hs).store.stored? e.id = some e' ∧ e.Lasts e' ∧
        List.Forall₂ Condition.Lasts (v.store.conditionsOf e.id)
          ((v.run hs).store.conditionsOf e.id) := by
  refine ⟨?formed, fun a => ?step, fun hs => ?run⟩
  case formed =>
    obtain ⟨by', n, hlife⟩ := hv.life he
    exact hlife.formed
  case step =>
    obtain ⟨e', he', hleaves⟩ := hv.lasts_after he a
    refine ⟨e', ?_, hleaves⟩
    rw [← hleaves.escrow.id]
    exact (Store.stored?_eq_some_iff (hv.step a).kept.distinct).mpr he'
  case run =>
    obtain ⟨e', he', hlasts, hconditions⟩ := hv.lasts_run he hs
    refine ⟨e', ?_, hlasts, hconditions⟩
    rw [← hlasts.id]
    exact (Store.stored?_eq_some_iff (hv.run hs).kept.distinct).mpr he'

/-- The sale as it was offered, before anybody did anything about it. -/
def offeredService : Service :=
  (Service.start 0 Settings.usual .recorder none).run [.operation ⟨"buyer", none⟩ (.create sale)]

/-- The sale gets another title and is funded, and one condition is met. -/
def takenUp : List Happening :=
  [.operation ⟨"buyer", none⟩
      (.task (Identifier.escrow 1) (.update ⟨some (some "Red bicycle"), none, none⟩)),
    .operation ⟨"buyer", none⟩ (.task (Identifier.escrow 1) (.activate (some "funds"))),
    .operation ⟨"seller", none⟩ (.confirm (Identifier.condition 2))]

/-- For all that it is still the same sale. -/
theorem terms_frozen_offeredService :
    ∃ e ∈ offeredService.store.escrows, e.title = "Bicycle" ∧
      e.Formed (offeredService.store.conditionsOf e.id) ∧
      ∃ e', (offeredService.run takenUp).store.stored? e.id = some e' ∧ e'.title = "Red bicycle" ∧
        e'.fundingTransaction = some "funds" ∧ e.Lasts e' ∧
        List.Forall₂ Condition.Lasts (offeredService.store.conditionsOf e.id)
          ((offeredService.run takenUp).store.conditionsOf e.id) := by
  obtain ⟨e, he, htitle, hid⟩ : ∃ e ∈ offeredService.store.escrows,
      e.title = "Bicycle" ∧ e.id = Identifier.escrow 1 := by decide +kernel
  have hreachable : Reachable offeredService := (Reachable.start ..).run _
  obtain ⟨hformed, -, hrun⟩ := terms_frozen hreachable he
  obtain ⟨e', hstored, hlasts, hconditions⟩ := hrun takenUp
  have hchanged : ((offeredService.run takenUp).store.stored? (Identifier.escrow 1)).map
      (fun e => (e.title, e.fundingTransaction)) = some ("Red bicycle", some "funds") := by
    decide +kernel
  rw [← hid, hstored] at hchanged
  obtain ⟨hretitled, hfunded⟩ := Prod.mk.inj (Option.some.inj hchanged)
  exact ⟨e, he, htitle, hformed, e', hstored, hretitled, hfunded, hlasts, hconditions⟩

end Custody

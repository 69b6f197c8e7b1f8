import Mathlib.Data.List.Induction
import Custody.Proofs.Entry
import Custody.Proofs.Portrait

/-!
# On whose word

The rules of who may do what are spread over a table of the policy, a question for the creator and
the conditions; by the time the log is read they have been asked long ago, and of a record that
has changed since. `Warrant` is what they come to for a reader of the log who has the record as it
is now.

> `Act.warrant`: what a deed enters into the log was allowed.
> `Warrant.deed`: what was allowed stays so, whatever is done later.
> `Service.recorded`: every event of a run was recorded by an operation in that run.
> `every_act_authorised`: after every run each event in a log is warranted, and so is each payment.
-/

namespace Custody

/-! ## Warrants -/

/-- What allows an event in the log of an escrow, as the record and the conditions tell it. `time`
is the time by which its operation judged. -/
inductive Warrant (e : Escrow) (cs : List Condition) (time : Moment) (b : Event) : Prop
  | creator (ht : b.type = .created ∨ b.type = .updated ∨ b.type = .activated)
      (ha : b.actor = e.creator)
  | confirmed (ht : b.type = .conditionMet) {r : Role} (ha : ⟨b.actor, r⟩ ∈ e.parties)
  | disputed (ht : b.type = .disputed)
      (ha : b.actor = e.creator ∨ ⟨b.actor, .seller⟩ ∈ e.parties)
  | cancelledPending (ht : b.type = .cancelled) (ho : b.oldStatus = some (word Status.pending))
      (ha : b.actor = e.creator)
  | cancelledActive (ht : b.type = .cancelled) (ho : b.oldStatus = some (word Status.active))
      (ha : b.actor = e.creator ∨ ⟨b.actor, .arbitrator⟩ ∈ e.parties)
  | cancelledDisputed (ht : b.type = .cancelled) (ho : b.oldStatus = some (word Status.disputed))
      (ha : ⟨b.actor, .arbitrator⟩ ∈ e.parties)
  | expired {m : Moment} (ht : b.type = .expired) (hs : e.status = .cancelled)
      (hd : e.loaded.deadline = some m) (hlt : m.instant < time.instant)
  | decided {note : Option String} {x t : String} (ht : b.type = .completed)
      (ho : b.oldStatus = some (word Status.disputed))
      (hd : b.data = .completed (.decision .release note) x t)
      (ha : ⟨b.actor, .arbitrator⟩ ∈ e.parties)
  | manual {x t : String} (ht : b.type = .completed)
      (ho : b.oldStatus = some (word Status.active)) (hd : b.data = .completed (.request true) x t)
      (ha : b.actor = e.creator)
  | automatic {x t : String} (ht : b.type = .completed)
      (ho : b.oldStatus = some (word Status.active))
      (hd : b.data = .completed (.request false) x t) (hm : ∀ c ∈ cs, c.met = true)

/-! ## Deadlines -/

theorem normalizeMoment_eq_ok {m? : Option Moment} {k : Moment}
    (h : normalizeMoment m? = .ok (some k)) :
    ∃ m, m? = some m ∧ k = .utc (Moment.floorSecond m.instant) := by
  cases m? with
  | none => cases h
  | some m =>
    refine ⟨m, rfl, ?_⟩
    unfold normalizeMoment Moment.normalize? at h
    simp only at h
    split at h
    next n hn =>
      split at hn
      next =>
        cases hn
        cases h
        rfl
      next => cases hn
    next => cases h

/-- Of two moments one is before the other if its second is. -/
theorem instant_lt_of_normalized {m? : Option Moment} {time d k : Moment}
    (hd : normalizeMoment m? = .ok (some d)) (hk : normalizeMoment (some time) = .ok (some k))
    (hlt : d.instant < k.instant) : ∃ m, m? = some m ∧ m.instant < time.instant := by
  obtain ⟨m, hm, rfl⟩ := normalizeMoment_eq_ok hd
  obtain ⟨t, ht, rfl⟩ := normalizeMoment_eq_ok hk
  cases ht
  refine ⟨m, hm, ?_⟩
  simp only [Moment.utc, Moment.instant, Option.getD_some, Moment.floorSecond, Moment.second]
    at hlt ⊢
  omega

/-! ## Deeds on the record and its conditions -/

section Deeds

variable {by' : Caller} {e : Escrow} {cs : List Condition} {w : Writes}
  {paid : Option (SettleRequest × String)} {time : Moment} {b : Event}

/-- What was allowed stays so, whatever is done later. -/
theorem Warrant.deed (h : Warrant e cs time b) (hd : Deed by' e.loaded cs w paid) (now : Moment) :
    Warrant (w.view now e) (cs.map (w.onCondition now)) time b := by
  obtain ⟨hparties, hcreator⟩ := Writes.view_people w now e
  cases h with
  | creator ht ha => exact .creator ht (by rw [hcreator]; exact ha)
  | confirmed ht ha => exact .confirmed ht (by rw [hparties]; exact ha)
  | disputed ht ha => exact .disputed ht (by rw [hparties, hcreator]; exact ha)
  | cancelledPending ht ho ha => exact .cancelledPending ht ho (by rw [hcreator]; exact ha)
  | cancelledActive ht ho ha => exact .cancelledActive ht ho (by rw [hparties, hcreator]; exact ha)
  | cancelledDisputed ht ho ha => exact .cancelledDisputed ht ho (by rw [hparties]; exact ha)
  | expired ht hs hm hlt =>
    -- The record is closed, so its deadline does not change any more.
    have hnone : w.patch = none :=
      (hd.come_of_isTerminal (by rw [Escrow.loaded_status, hs]; rfl)).1.patch_eq
    rw [Writes.view_of_none hnone]
    exact .expired ht hs hm hlt
  | decided ht ho hb ha => exact .decided ht ho hb (by rw [hparties]; exact ha)
  | manual ht ho hb ha => exact .manual ht ho hb (by rw [hcreator]; exact ha)
  | automatic ht ho hb hm =>
    refine .automatic ht ho hb fun c' hc' => ?_
    obtain ⟨c, hc, rfl⟩ := List.mem_map.mp hc'
    rw [Writes.onCondition_met, hm c hc, Bool.true_or]

/-- Who is permitted something that the system does not do itself holds a role that the table
names. -/
theorem role_of_permit {a : Action} {actor : String} {s : Status} (h : permit e actor a = .ok ())
    (hs : e.status = s) {rs : List Role} (hr : permission a s = .roles rs) :
    ∃ r ∈ rs, ⟨actor, r⟩ ∈ e.parties := by
  subst hs
  rcases permit_eq_ok_iff.mp h with hp | ⟨rs', hp, hmem⟩
  · rw [hr] at hp
    cases hp
  · rw [hr] at hp
    cases hp
    exact hmem

/-- Where an action is open in one status only, the escrow is in it. -/
theorem status_of_permit {a : Action} {actor : String} {s : Status} (h : permit e actor a = .ok ())
    (hs : ∀ t, t ≠ s → permission a t = .nobody) : e.status = s := by
  by_contra hne
  exact permission_of_permit h (hs _ hne)

/-- An action that is open in one status and to one role is done there, and by who holds it. -/
theorem sole_of_permit {a : Action} {actor : String} {s : Status} {r : Role}
    (h : permit e actor a = .ok ()) (hr : permission a s = .roles [r])
    (hs : ∀ t, t ≠ s → permission a t = .nobody) :
    e.status = s ∧ ⟨actor, r⟩ ∈ e.parties := by
  have hs := status_of_permit h hs
  obtain ⟨r', hr', hmem⟩ := role_of_permit h hs hr
  rw [List.mem_singleton.mp hr'] at hmem
  exact ⟨hs, hmem⟩

/-- What a deed enters into the log was allowed. -/
theorem Act.warrant {d : EventDraft} (h : Act by' e.loaded cs w d)
    (hbuyer : ∀ u, ⟨u, .buyer⟩ ∈ e.parties → u = e.creator) (now : Moment) (x : Identifier)
    (i j : Nat)
    (htime : d.type = .expired → ∃ r m s k, d.data = .expired r m s ∧
      normalizeMoment (some time) = .ok (some k) ∧ m.instant < k.instant) :
    Warrant (w.view now e) (cs.map (w.onCondition now)) time (d.entered now x i j) := by
  obtain ⟨hparties, hcreator⟩ := Writes.view_people w now e
  have allMet : (∀ c ∈ cs, c.met = true ∨ w.met.any (fun m => m.1 = c.id) = true) →
      ∀ c ∈ cs.map (w.onCondition now), c.met = true := by
    intro hmet c' hc'
    obtain ⟨c, hc, rfl⟩ := List.mem_map.mp hc'
    rw [Writes.onCondition_met, Bool.or_eq_true]
    exact hmet c hc
  cases h with
  | updated hp =>
    obtain ⟨-, hmem⟩ := sole_of_permit (s := .pending) (r := .buyer) hp rfl
      fun t => by cases t <;> simp [permission]
    exact .creator (.inr (.inl rfl)) (hcreator ▸ hbuyer _ hmem)
  | activated hp =>
    obtain ⟨-, hmem⟩ := sole_of_permit (s := .pending) (r := .buyer) hp rfl
      fun t => by cases t <;> simp [permission]
    exact .creator (.inr (.inr rfl)) (hcreator ▸ hbuyer _ hmem)
  | disputed hp =>
    have hs : e.status = .active := status_of_permit hp fun t => by cases t <;> simp [permission]
    obtain ⟨r, hr, hmem⟩ := role_of_permit hp hs rfl
    rcases List.mem_pair.mp hr with rfl | rfl
    · exact .disputed rfl (.inl (hcreator ▸ hbuyer _ hmem))
    · exact .disputed rfl (.inr (hparties ▸ hmem))
  | cancelled hp =>
    -- Who may cancel depends on the status, and the event has it as the old one.
    cases hs : e.status with
    | pending =>
      obtain ⟨r, hr, hmem⟩ := role_of_permit hp hs rfl
      rw [List.mem_singleton.mp hr] at hmem
      exact .cancelledPending rfl (congrArg (fun s => some (word s)) hs)
        (hcreator ▸ hbuyer _ hmem)
    | active =>
      obtain ⟨r, hr, hmem⟩ := role_of_permit hp hs rfl
      refine .cancelledActive rfl (congrArg (fun s => some (word s)) hs) ?_
      rcases List.mem_pair.mp hr with rfl | rfl
      · exact .inl (hcreator ▸ hbuyer _ hmem)
      · exact .inr (hparties ▸ hmem)
    | disputed =>
      obtain ⟨r, hr, hmem⟩ := role_of_permit hp hs rfl
      rw [List.mem_singleton.mp hr] at hmem
      exact .cancelledDisputed rfl (congrArg (fun s => some (word s)) hs) (hparties ▸ hmem)
    | completed | cancelled =>
      exact absurd (congrArg (permission .cancel) hs) (permission_of_permit hp)
  | expired hp hd hw =>
    obtain ⟨r, m, s, k, hdata, hk, hlt⟩ := htime rfl
    cases hdata
    obtain ⟨m, hm, hlt⟩ := instant_lt_of_normalized hd hk hlt
    have hcancelled : (w.view now e).status = .cancelled := Writes.status_view hw now
    have hdeadline : (w.view now e).loaded.deadline = some m := by
      rw [Writes.view, hw]
      exact hm
    exact .expired rfl hcancelled hdeadline hlt
  | refunded hp =>
    obtain ⟨hs, hmem⟩ := sole_of_permit (s := .disputed) (r := .arbitrator) hp rfl
      fun t => by cases t <;> simp [permission]
    exact .cancelledDisputed rfl (congrArg (fun s => some (word s)) hs) (hparties ▸ hmem)
  | decided hp hb =>
    obtain ⟨hs, hmem⟩ := sole_of_permit (s := .disputed) (r := .arbitrator) hp rfl
      fun t => by cases t <;> simp [permission]
    exact .decided rfl (congrArg (fun s => some (word s)) hs) rfl (hparties ▸ hmem)
  | @released manual _ _ hs hp hb =>
    have ho : some (word e.status) = some (word Status.active) :=
      congrArg (fun s => some (word s)) (show e.status = .active from hs)
    -- A release by hand asks for the creator, and any other for the conditions.
    cases manual with
    | true =>
      unfold permitRelease at hp
      rw [if_pos rfl] at hp
      split at hp
      next hc => exact .manual rfl ho rfl (hcreator ▸ hc.symm)
      next => cases hp
    | false =>
      obtain ⟨_, -, hp⟩ := Except.bind_eq_ok_iff.mp hp
      split at hp
      next hopen =>
        refine .automatic rfl ho rfl (allMet fun c hc => .inl ?_)
        have hmet := List.filter_eq_nil_iff.mp hopen c hc
        simpa using hmet
      next => cases hp
  | confirmed hp hm =>
    have hs : e.status = .active := status_of_permit hp fun t => by cases t <;> simp [permission]
    obtain ⟨r, -, hmem⟩ := role_of_permit hp hs rfl
    exact .confirmed rfl (hparties ▸ hmem)
  | @followed c _ _ hs hmet hm hb =>
    have ho : some (word e.status) = some (word Status.active) :=
      congrArg (fun s => some (word s)) (show e.status = .active from hs)
    -- The last condition is met by the deed itself, the others were met before.
    refine .automatic rfl ho rfl (allMet fun a ha => ?_)
    by_cases hac : a.id = c.id
    · rw [hm]
      exact .inr (decide_eq_true hac.symm)
    · exact .inl (hmet a ha hac)

end Deeds

/-! ## Lives -/

section Lives

variable {by' : Caller} {n : NewEscrow} {e : Escrow} {cs : List Condition} {es : List Event}

/-- Nobody but the creator is a buyer. -/
theorem formParties_buyer {creator : String} {entries : List PartyInput} {ps : List Party}
    (h : formParties creator entries = .ok ps) {u : String} (hu : ⟨u, .buyer⟩ ∈ ps) :
    u = creator := by
  obtain ⟨-, -, -, rfl⟩ := formParties_inv h
  rcases List.mem_cons.mp hu with hu | hu
  · exact congrArg Party.user hu
  · obtain ⟨p, hp, hpu⟩ := List.mem_map.mp hu
    have hne : p.role ≠ .buyer := of_decide_eq_true (List.mem_filter.mp hp).2
    exact absurd (congrArg Party.role hpu) hne

theorem Life.buyer (h : Life by' n e cs es) : ∀ u, ⟨u, .buyer⟩ ∈ e.parties → u = e.creator := by
  induction h with
  | created hn hf he hc =>
    subst he
    exact fun u hu => formParties_buyer (NewEscrow.define_formed hn) hu
  | @deed e cs es who w paid h hd now i ih =>
    obtain ⟨hparties, hcreator⟩ := Writes.view_people w now e
    rw [hparties, hcreator]
    exact ih

/-- Every event in the log of a life was allowed, an expiry by a time after its deadline. -/
theorem Life.warrant (h : Life by' n e cs es) {time : Moment} {b : Event} (hb : b ∈ es)
    (htime : b.type = .expired → ∃ r m s k, b.data = .expired r m s ∧
      normalizeMoment (some time) = .ok (some k) ∧ m.instant < k.instant) :
    Warrant e cs time b := by
  refine h.forall_events (P := fun e cs b => (b.type = .expired → ∃ r m s k,
    b.data = .expired r m s ∧ normalizeMoment (some time) = .ok (some k) ∧ m.instant < k.instant) →
      Warrant e cs time b) ?created ?kept ?entered b hb htime
  case created =>
    intro e cs hcreator now i _
    exact .creator (.inl rfl) hcreator.symm
  case kept =>
    intro e cs who w paid hd now b hw htime
    exact (hw htime).deed hd now
  case entered =>
    intro e cs es who w d hl ha now i j htime
    exact ha.warrant hl.buyer now _ i j htime

end Lives

/-! ## Runs -/

/-- An event that an operation recorded is in the name of its caller, or it is a release by the
conditions, in the name of the creator. -/
def Event.InNameOf (b : Event) (by' : Caller) (creator : String) : Prop :=
  b.actor = by'.user ∨
    b.actor = creator ∧ ∃ x t, b.data = .completed (.request false) x t

section Runs

variable {v u : Service} {by' : Caller}

theorem Act.inNameOf {e : Escrow} {cs : List Condition} {w : Writes} {d : EventDraft}
    (h : Act by' e cs w d) (now : Moment) (x : Identifier) (i j : Nat) :
    (d.entered now x i j).InNameOf by' e.creator := by
  cases h with
  | followed => exact .inr ⟨rfl, _, _, rfl⟩
  | _ => exact .inl rfl

theorem Turned.creator {e e' : Escrow} (h : Turned v u by' e e') : e'.creator = e.creator := by
  cases h with
  | untouched => rfl
  | deed => exact (Writes.view_people ..).2

/-- A new event of an operation is in the name of its caller or of the creator. -/
theorem Effect.inNameOf (hk : Kept v.store v.counters) (hu : Effect v by' u) {e : Escrow}
    (he : e ∈ u.store.escrows) {b : Event} (hb : b ∈ u.store.events) (hnew : b ∉ v.store.events)
    (hbe : b.escrow = e.id) : b.InNameOf by' e.creator := by
  have turned := fun hid => hu.turned hk he hid
  cases hu with
  | nothing => exact absurd hb hnew
  | creation =>
    have hb := (List.mem_append.mp hb).resolve_left hnew
    rw [List.mem_singleton.mp hb]
    exact .inl rfl
  | @deed a w paid ha hdeed hans =>
    have hid : e.id ∈ v.store.escrows.map (·.id) := by
      rw [Store.escrows_enterAll] at he
      obtain ⟨d, hd, rfl⟩ := List.mem_map.mp he
      exact List.mem_map.mpr ⟨d, hd, (Writes.onRecord_id ..).symm⟩
    obtain ⟨d, hd, hde, ht⟩ := turned hid
    rw [Store.events_enterAll_eq] at hb
    have hb := (List.mem_append.mp hb).resolve_left hnew
    obtain ⟨f, hf, i, j, rfl⟩ := mem_enterDrafts hb
    -- The event names the escrow of the deed, whose record is the only one.
    have hst := (Store.stored?_eq_some_iff hk.distinct).mpr hd
    rw [hde, ← hbe] at hst
    have hsame : some a = some d := ha.symm.trans hst
    cases hsame
    rw [ht.creator]
    exact (hdeed.act f hf).inNameOf ..

variable {clock : Int} {settings : Settings} {dispatcher : Dispatcher} {lease : Option Lease}
  {hs : List Happening}

/-- Every event of a run was recorded by an operation in that run. -/
theorem Service.recorded {e : Escrow}
    (he : e ∈ ((Service.start clock settings dispatcher lease).run hs).store.escrows) {b : Event}
    (hb : b ∈ ((Service.start clock settings dispatcher lease).run hs).store.events)
    (hbe : b.escrow = e.id) :
    ∃ v by' op, Did (Service.start clock settings dispatcher lease) hs v by' op ∧
      b ∉ v.store.events ∧ b ∈ (v.perform by' op).2.1.store.events ∧
      b.InNameOf by' e.creator := by
  induction hs using List.reverseRecOn generalizing e with
  | nil => cases hb
  | append_singleton hs a ih =>
    rw [run_concat] at he hb
    have hv := (Reachable.start clock settings dispatcher lease).run hs
    cases a with
    | operation by' op =>
      -- An event that was there before came with an operation before, about the same escrow.
      by_cases hold : b ∈ ((Service.start clock settings dispatcher lease).run hs).store.events
      · obtain ⟨d, hd, hdb⟩ := hv.logged b hold
        have hid : e.id ∈ ((Service.start clock settings dispatcher lease).run hs).store.escrows.map
            (·.id) := List.mem_map.mpr ⟨d, hd, hdb.trans hbe⟩
        obtain ⟨d', hd', hde, ht⟩ := (perform_effect hv.kept.sound by' op).turned hv.kept he hid
        obtain ⟨u, who, op', hdid, hnew, hrec, hname⟩ := ih hd' hold (hbe.trans hde.symm)
        rw [← ht.creator] at hname
        exact ⟨u, who, op', hdid.append _, hnew, hrec, hname⟩
      · exact ⟨_, by', op, .last .., hold, hb,
          (perform_effect hv.kept.sound by' op).inNameOf hv.kept he hb hold hbe⟩
    | _ =>
      obtain ⟨u, who, op', hdid, hrec⟩ := ih he hb hbe
      exact ⟨u, who, op', hdid.append _, hrec⟩

/-- A settlement that a record tells of is told of in the log, too. -/
theorem Life.settlement {by' : Caller} {n : NewEscrow} {e : Escrow} {cs : List Condition}
    {es : List Event} (h : Life by' n e cs es) {q : Settlement} (hq : q ∈ e.settlements) :
    ∃ b ∈ es, b.type = .completed ∧
      ∃ basis, b.data = .completed basis q.beneficiary q.transaction := by
  unfold Escrow.settlements at hq
  split at hq
  next x t hx ht =>
    rw [List.mem_singleton.mp hq]
    have hsome : ∃ b ∈ es, b.type = .completed := by
      by_contra hnone
      push Not at hnone
      rw [h.release.2 hnone] at ht
      cases ht
    obtain ⟨b, hb, htype⟩ := hsome
    obtain ⟨basis, x', t', hd, ht', hx'⟩ := h.release.1 b hb htype
    rw [hx] at hx'
    rw [ht] at ht'
    cases hx'
    cases ht'
    exact ⟨b, hb, htype, basis, hd⟩
  next => cases hq

/-- After every run each event in the log of an escrow was recorded by an operation of its kind in
that run, in the name of its caller, and is warranted by the time of the operation. Each payment
of the ledger is told of in the log of its escrow, so it is warranted, too. -/
theorem every_act_authorised :
    (∀ e ∈ ((Service.start clock settings dispatcher lease).run hs).store.escrows,
      ∀ b ∈ ((Service.start clock settings dispatcher lease).run hs).store.eventsOf e.id,
        ∃ v by' op, Did (Service.start clock settings dispatcher lease) hs v by' op ∧
          b ∉ v.store.events ∧ b ∈ (v.perform by' op).2.1.store.events ∧
          b.type ∈ op.entries ∧ b.InNameOf by' e.creator ∧
          Warrant e
            (((Service.start clock settings dispatcher lease).run hs).store.conditionsOf e.id)
            (op.time v.now) b) ∧
    ∀ q ∈ ((Service.start clock settings dispatcher lease).run hs).ledger.settlements,
      ∃ e ∈ ((Service.start clock settings dispatcher lease).run hs).store.escrows,
        e.id.text = q.escrow ∧
        ∃ b ∈ ((Service.start clock settings dispatcher lease).run hs).store.eventsOf e.id,
          b.type = .completed ∧
            ∃ basis, b.data = .completed basis q.beneficiary q.transaction := by
  have hv := (Reachable.start clock settings dispatcher lease).run hs
  constructor
  · intro e he b hb
    obtain ⟨_, _, hl⟩ := hv.life he
    rw [hv.eventsOf_eq_logOf] at hb
    obtain ⟨hbs, hbe⟩ := Store.mem_logOf.mp hb
    obtain ⟨v, by', op, hdid, hnew, hrec, hname⟩ := Service.recorded he hbs hbe
    have htype := Service.type_mem_entries hrec hnew
    refine ⟨v, by', op, hdid, hnew, hrec, htype, hname, hl.warrant ?_ fun hexp => ?_⟩
    · rw [hv.eventsOf_eq_logOf]
      exact hb
    · -- Only one operation records an expiry, and it judges by its own time.
      rw [hexp] at htype
      cases op with
      | create n => simp [Operation.entries] at htype
      | confirm k => simp [Operation.entries] at htype
      | task x t =>
        cases t with
        | expire reason t => exact Service.deadline_lt_of_expired hrec hnew
        | _ => simp [Operation.entries, Task.entries] at htype
  · intro q hq
    obtain ⟨e, he, hid⟩ := hv.settled.stored q hq
    obtain ⟨_, _, hl⟩ := hv.life he
    refine ⟨e, he, hid, hl.settlement ?_⟩
    rw [← hv.settled.told e he]
    exact List.mem_filter.mpr ⟨hq, decide_eq_true hid.symm⟩

end Runs

/-- A service with a sale that was funded, and given up by a passer-by after its deadline. -/
def overdueService : Service :=
  (Service.start 0 Settings.usual .recorder none).run
    [.operation ⟨"buyer", none⟩ (.create { sale with deadline := some ⟨60 * Moment.second, none⟩ }),
      .operation ⟨"buyer", none⟩ (.task (Identifier.escrow 1) (.activate (some "funds"))),
      .clock (61 * Moment.second),
      .operation ⟨"passer-by", none⟩ (.task (Identifier.escrow 1) (.expire none none))]

/-- The passer-by had no part in the sale, and what he did was warranted by the clock. -/
theorem every_act_authorised_overdueService :
    ∃ e ∈ overdueService.store.escrows, ∃ b ∈ overdueService.store.eventsOf e.id,
      b.type = .expired ∧ b.actor = "passer-by" ∧
        ∃ v by' op, b ∈ (Service.perform v by' op).2.1.store.events ∧
          Warrant e (overdueService.store.conditionsOf e.id) (op.time v.now) b := by
  have hreachable : Reachable overdueService := (Reachable.start ..).run _
  have hevent : (.expired, "passer-by") ∈
      overdueService.store.events.map (fun b => (b.type, b.actor)) := by
    decide +kernel
  obtain ⟨b, hb, hboth⟩ := List.mem_map.mp hevent
  obtain ⟨htype, hactor⟩ := Prod.mk.inj hboth
  obtain ⟨e, he, hbe⟩ := hreachable.logged b hb
  have hlog : b ∈ overdueService.store.eventsOf e.id := by
    rw [hreachable.eventsOf_eq_logOf]
    exact Store.mem_logOf.mpr ⟨hb, hbe.symm⟩
  obtain ⟨v, by', op, -, -, hrec, -, -, hw⟩ := every_act_authorised.1 e he b hlog
  exact ⟨e, he, b, hlog, htype, hactor, v, by', op, hrec, hw⟩

end Custody

import Custody.Proofs.Terms
import Custody.Proofs.Transcript

/-!
# Notifications mirror the log

An operation enters its events in the transaction and sends its notification when the transaction is
over and the lock is free. The two are made in different places and for different readers. Still they
tell the same: of the events of an escrow each is told once and in its turn, but for those that a
condition is met, and nothing is told that is not in the log.

> `Deed.mirrors`: what a deed announces mirrors what it enters.
> `Mirrored.comes`: so does what any operation comes to.
> `notifications_mirror_log`: so do the notifications of every run.
-/

namespace Custody

/-! ## One event, one notification -/

/-- The name under which others are told of an event. That a condition is met is not told. -/
def EventType.subject? : EventType → Option String
  | .created => some "escrow.created"
  | .updated => some "escrow.updated"
  | .activated => some "escrow.activated"
  | .disputed => some "escrow.disputed"
  | .completed => some "escrow.released"
  | .cancelled => some "escrow.cancelled"
  | .expired => some "escrow.expired"
  | .conditionMet => none

/-- Whether others are told of an event. -/
def Event.isTold (b : Event) : Bool := b.type ≠ .conditionMet

/-- A notification tells of an event in the log of an escrow: under its name, with the status that it
led to and the people of the escrow, and with what was changed or who was paid in which
transaction. -/
structure Mirrors (e : Escrow) (b : Event) (n : Notification) : Prop where
  event : b.type.subject? = some n.event
  escrow : n.payload.lookup "escrow_id" = some (.json (.text e.id.text))
  status : ∃ s, b.newStatus = some s ∧ n.payload.lookup "status" = some (.json (.text s))
  creator : n.payload.lookup "creator_id" = some (.json (.text e.creator))
  recipient : n.payload.lookup "recipient_id" = some (.json (Json.ofText? e.recipient?))
  changes : b.type = .updated → ∃ cs, b.data = .updated cs ∧
    n.payload.lookup "changes" = some (.json (changedFields cs))
  payment : b.type = .completed → ∃ basis x t, b.data = .completed basis x t ∧
    n.payload.lookup "beneficiary" = some (.json (.text x)) ∧
    n.payload.lookup "tx_hash" = some (.json (.text t))

/-- Whom a notification names does not change any more. -/
theorem Mirrors.lasts {e e' : Escrow} {b : Event} {n : Notification} (h : Mirrors e b n)
    (hl : e.Lasts e') : Mirrors e' b n := by
  refine ⟨h.event, ?_, h.status, ?_, ?_, h.changes, h.payment⟩
  · rw [hl.id]
    exact h.escrow
  · rw [hl.creator]
    exact h.creator
  · rw [Escrow.recipient?, hl.parties]
    exact h.recipient

namespace Announcement

/-- What an announcement adds stands beside the state of the escrow. -/
structure Apart (a : Announcement) : Prop where
  nodup : (a.extra.map (·.1)).Nodup
  free : ∀ k ∈ Notification.stateNames, ∀ m ∈ a.extra, m.1 ≠ k

/-- What an announcement tells of a record with the same people mirrors the event of a draft. -/
theorem mirrors {a : Announcement} {e r : Escrow} {d : EventDraft} (ha : a.Apart)
    (hid : r.id = e.id) (hcreator : r.creator = e.creator) (hparties : r.parties = e.parties)
    (hevent : d.type.subject? = some (word a.notice)) (hstatus : d.newStatus = some r.status)
    (hchanges : d.type = .updated → ∃ cs, d.data = .updated cs ∧
      ("changes", .json (changedFields cs)) ∈ a.extra)
    (hpayment : d.type = .completed → ∃ basis x t, d.data = .completed basis x t ∧
      ("beneficiary", .json (.text x)) ∈ a.extra ∧ ("tx_hash", .json (.text t)) ∈ a.extra)
    (now : Moment) (x : Identifier) (i k : Nat) :
    Mirrors e (d.entered now x i k) (a.about r) := by
  have state : ∀ {k : String}, k ∈ Notification.stateNames →
      (a.about r).payload.lookup k =
        ((⟨a.notice, []⟩ : Announcement).about r).payload.lookup k :=
    fun hk => Notification.lookup_extend (ha.free _ hk) _
  have added : ∀ {k : String} {x : LogValue}, (k, x) ∈ a.extra →
      (a.about r).payload.lookup k = some x :=
    fun hk => Notification.lookup_extend_self ha.nodup hk _
  -- The state is told of every escrow under names of its own, which nothing added to it has.
  constructor
  case event => exact hevent
  case escrow =>
    rw [state (by decide), ← hid]
    rfl
  case status =>
    refine ⟨word r.status, congrArg (Option.map word) hstatus, ?_⟩
    rw [state (by decide)]
    rfl
  case creator =>
    rw [state (by decide), ← hcreator]
    rfl
  case recipient =>
    rw [state (by decide), Escrow.recipient?, ← hparties]
    rfl
  case changes =>
    intro ht
    obtain ⟨cs, hcs, hmem⟩ := hchanges ht
    exact ⟨cs, hcs, added hmem⟩
  case payment =>
    intro ht
    obtain ⟨basis, x, t, hdata, hx, hmem⟩ := hpayment ht
    exact ⟨basis, x, t, hdata, added hx, added hmem⟩

end Announcement

/-! ## Deeds -/

section Deeds

variable {by' : Caller} {e : Escrow} {cs : List Condition} {w : Writes}
  {paid : Option (SettleRequest × String)}

/-- What a deed announces mirrors what it enters into the log. -/
theorem Deed.mirrors (h : Deed by' e.loaded cs w paid) (now : Moment) (i k : Nat) :
    List.Forall₂ (Mirrors e)
      ((enterDrafts now e.id i k w.drafts).filter Event.isTold)
      (w.announcement.map fun a => a.about (w.view now e.loaded)).toList := by
  have told := fun {a : Announcement} {d : EventDraft} (ha : w.announcement = some a)
    (hn : (a.extra.map (·.1)).Nodup) =>
    a.mirrors (e := e) (d := d) ⟨hn, fun _ hk => h.extra_ne ha hk⟩ (Writes.view_id w now e.loaded)
      (Writes.view_people w now e.loaded).2 (Writes.view_people w now e.loaded).1
  have status : ∀ {p : Patch}, w.patch = some p →
      some (p.apply e.loaded).status = some (w.view now e.loaded).status :=
    fun hp => congrArg some (Writes.status_view hp now).symm
  cases h with
  | sameTerms _ hw | releasedBefore _ hw | metBefore _ _ hw | confirmation _ _ _ _ hw =>
    rw [hw.drafts_eq, hw.announcement_eq]
    exact .nil
  | terms _ _ hw =>
    have hs := congrArg some (Writes.status_terms (e := e.loaded) hw.patch_eq now).symm
    rw [hw.drafts_eq, hw.announcement_eq]
    refine .cons (told hw.announcement_eq (by simp) rfl hs ?_ ?_ ..) .nil
    · exact fun _ => ⟨_, rfl, List.mem_singleton.mpr rfl⟩
    · exact fun ht => nomatch ht
  | activation _ hw | dispute _ hw | cancellation _ hw | expiry _ _ _ _ hw | refund _ hw =>
    have hs := status hw.patch_eq
    rw [hw.drafts_eq, hw.announcement_eq]
    refine .cons (told hw.announcement_eq (by simp) rfl hs ?_ ?_ ..) .nil
    · exact fun ht => nomatch ht
    · exact fun ht => nomatch ht
  | decided _ _ hw | release _ _ _ _ hw | lastConfirmation _ _ _ _ _ _ _ hw =>
    -- A confirmation that releases is told of as the release only.
    have hs := status hw.patch_eq
    rw [hw.drafts_eq, hw.announcement_eq]
    refine .cons (told hw.announcement_eq (by simp [paymentNote]) rfl hs ?_ ?_ ..) .nil
    · intro ht
      cases ht
    · exact fun _ => ⟨_, _, _, rfl, by simp [paymentNote]⟩

end Deeds

/-! ## Operations -/

/-- Whether a notification is about an escrow. -/
def Notification.isAbout (x : Identifier) (n : Notification) : Bool := n.escrow? = some x.text

/-- The notifications so far mirror the logs of a store: those about an escrow its log, and there
are none about others. -/
structure Mirrored (s : Store) (told : List Notification) : Prop where
  mirror : ∀ e ∈ s.escrows, List.Forall₂ (Mirrors e) ((s.logOf e.id).filter Event.isTold)
    (told.filter (Notification.isAbout e.id))
  known : ∀ n ∈ told, ∃ e ∈ s.escrows, n.escrow? = some e.id.text

namespace Mirrored

variable {s s' : Store} {told ns : List Notification}

/-- What is told of one escrow leaves what mirrors the others. -/
theorem grow (h : Mirrored s told) {x : Identifier}
    (hns : ∀ n ∈ ns, n.escrow? = some x.text)
    (others : ∀ e ∈ s'.escrows, e.id ≠ x → e ∈ s.escrows ∧ s'.logOf e.id = s.logOf e.id)
    (own : ∀ e ∈ s'.escrows, e.id = x → List.Forall₂ (Mirrors e)
      ((s'.logOf e.id).filter Event.isTold) (told.filter (Notification.isAbout e.id) ++ ns))
    (stay : ∀ e ∈ s.escrows, ∃ e' ∈ s'.escrows, e'.id = e.id)
    (there : ∃ e ∈ s'.escrows, e.id = x) : Mirrored s' (told ++ ns) := by
  constructor
  case mirror =>
    intro e he
    rw [List.filter_append]
    -- All that is told is about the one escrow, so nothing is added for the others.
    by_cases hx : e.id = x
    · have hall : ns.filter (Notification.isAbout e.id) = ns :=
        List.filter_eq_self.mpr fun n hn => decide_eq_true (hx ▸ hns n hn)
      rw [hall]
      exact own e he hx
    · have hnone : ns.filter (Notification.isAbout e.id) = [] := by
        refine List.filter_eq_nil_iff.mpr fun n hn hne => hx ?_
        have hboth := (of_decide_eq_true hne).symm.trans (hns n hn)
        exact Identifier.text_injective (Option.some.inj hboth)
      obtain ⟨hmem, hlog⟩ := others e he hx
      rw [hnone, List.append_nil, hlog]
      exact h.mirror e hmem
  case known =>
    intro n hn
    rcases List.mem_append.mp hn with hn | hn
    · obtain ⟨e, he, hne⟩ := h.known n hn
      obtain ⟨e', he', hid⟩ := stay e he
      exact ⟨e', he', hid ▸ hne⟩
    · obtain ⟨e, he, hx⟩ := there
      exact ⟨e, he, hx ▸ hns n hn⟩

variable {v : Service} {by' : Caller}

/-- A new escrow has one event, and nothing was told of it before. -/
theorem creation (hv : Reachable v) (h : Mirrored v.store told) {d : Escrow} {cs : List Condition}
    (hd : d.id = Identifier.escrow (v.counters.escrows + 1)) (hcs : ∀ c ∈ cs, c.escrow = d.id)
    (hs : d.status = .pending) (now : Moment) (n : Nat) :
    Mirrored ((v.store.add d cs).enter now d.id n (creationDraft d cs.length by'))
      (told ++ [(⟨.created, []⟩ : Announcement).about d]) := by
  have hfresh : d.id ∉ v.store.escrows.map (·.id) := hd ▸ hv.kept.fresh
  have hmirrors : Mirrors d ((creationDraft d cs.length by').entered now d.id n 1)
      ((⟨.created, []⟩ : Announcement).about d) := by
    refine Announcement.mirrors (a := ⟨.created, []⟩)
      ⟨List.nodup_nil, fun _ _ m hm => nomatch hm⟩ rfl rfl rfl rfl ?_ ?_ ?_ ..
    · exact congrArg some hs.symm
    · exact fun ht => nomatch ht
    · exact fun ht => nomatch ht
  refine h.grow (x := d.id) (fun m hm => ?_) (fun e he hne => ?_) (fun e he hx => ?_)
    (fun e he => ⟨e, List.mem_append_left _ he, rfl⟩)
    ⟨d, List.mem_append_right _ (List.mem_singleton.mpr rfl), rfl⟩
  · rw [List.mem_singleton.mp hm]
    exact Announcement.escrow?_about (by simp) d
  · have hold := (List.mem_append.mp he).resolve_right
      fun hnew => hne (congrArg Escrow.id (List.mem_singleton.mp hnew))
    exact ⟨hold, congrArg Store.events (Store.part_add_of_ne hcs hne now n _)⟩
  · have hnew := (List.mem_append.mp he).resolve_left
      fun hold => hfresh (hx ▸ List.mem_map_of_mem hold)
    -- Whatever was told before is about escrows that were there, and this one was not.
    have hnone : told.filter (Notification.isAbout d.id) = [] := by
      refine List.filter_eq_nil_iff.mpr fun m hm hmd => hfresh ?_
      obtain ⟨e, he, hme⟩ := h.known m hm
      have hid : e.id = d.id :=
        Identifier.text_injective (Option.some.inj (hme.symm.trans (of_decide_eq_true hmd)))
      exact hid ▸ List.mem_map_of_mem he
    rw [List.mem_singleton.mp hnew, hnone, (Store.add_of_fresh hcs (hv.unnamed hfresh).1
      (hv.unnamed hfresh).2 now n (creationDraft d cs.length by')).2]
    exact .cons hmirrors .nil

/-- A deed enters into the log of its escrow what is announced of it. -/
theorem done {c : Counters} (hk : Kept s c) (h : Mirrored s told) {o : Outcome Escrow}
    {d : Escrow} {w : Writes} {paid : Option (SettleRequest × String)} {env : Surroundings}
    (ho : o.Done env by' d s c w paid) :
    Mirrored o.store (told ++ o.announced.toList) := by
  have hmem : d ∈ s.escrows := List.mem_of_find?_eq_some ho.stored
  have hescrows : o.store.escrows = (s.changed env.now d.id w).escrows := by
    rw [ho.store, Store.escrows_enterAll]
  have image : ∀ e ∈ s.escrows, w.onRecord env.now d.id e ∈ o.store.escrows :=
    fun e he => hescrows ▸ List.mem_map_of_mem he
  refine h.grow (x := d.id) (fun m hm => ho.escrow?_announced m (Option.mem_toList.mp hm))
    (fun e' he' hne => ?_) (fun e' he' hx => ?_)
    (fun e he => ⟨_, image e he, Writes.onRecord_id ..⟩) ⟨_, image d hmem, Writes.onRecord_id ..⟩
  · rcases hk.mem_changed ho.stored (hescrows ▸ he') with rfl | ⟨he, -⟩
    · exact absurd (Writes.view_id ..) hne
    · rw [ho.store]
      exact ⟨he, congrArg Store.events
        (Store.part_written_deed hk.conditionsDistinct ho.deed hne env.now (c.events + 1))⟩
  · rcases hk.mem_changed ho.stored (hescrows ▸ he') with rfl | ⟨-, hne⟩
    · rw [Writes.view_id, ho.store, Store.logOf_enterAll, List.filter_append, ho.announced]
      have hlasts := w.lasts_view env.now d
      exact List.rel_append ((h.mirror d hmem).imp fun _ _ hm => hm.lasts hlasts)
        ((ho.deed.mirrors env.now _ _).imp fun _ _ hm => hm.lasts hlasts)
    · exact absurd hx hne

/-- What any operation comes to enters what it announces. -/
theorem comes {env : Surroundings} {op : Operation} {seen : Store} (hv : Reachable v)
    (h : Mirrored v.store told) {o : Outcome Answer}
    (ho : op.Comes env by' seen v.store v.counters o) :
    Mirrored o.store (told ++ o.announced.toList) := by
  cases ho with
  | failed ho =>
    rw [ho.store, ho.announced, Option.toList_none, List.append_nil]
    exact h
  | idle log a =>
    rw [show (Outcome.settled v.store v.counters log a).announced = none from rfl,
      Option.toList_none, List.append_nil]
    exact h
  | created _ hn hf he hc =>
    refine creation hv h (congrArg Escrow.id he) (fun c hcm => ?_) (congrArg Escrow.status he) _ _
    rw [hc] at hcm
    exact (mem_numberConditions hcm).1
  | done hx ho answer => exact done hv.kept h ho

/-- So does whatever happens. -/
theorem after (hv : Reachable v) (h : Mirrored v.store told) (a : Happening) :
    Mirrored (v.after a).store (told ++ (v.tells a).map (·.2)) := by
  cases a with
  | operation by' op =>
    have hsame : (v.tells (.operation by' op)).map (·.2) = (v.announced by' op).toList := by
      rw [Service.tells, List.map_map, Function.comp_def, List.map_id']
    rw [hsame]
    exact comes hv h (op.run_comes v.surroundings hv.kept.sound by' v.store v.counters)
  | _ =>
    show Mirrored v.store (told ++ [])
    rw [List.append_nil]
    exact h

end Mirrored

/-! ## Runs -/

/-- The notifications of every run mirror its logs. -/
theorem Service.mirrored_run (clock : Int) (settings : Settings) (dispatcher : Dispatcher)
    (lease : Option Lease) (hs : List Happening) :
    Mirrored ((start clock settings dispatcher lease).run hs).store
      (((start clock settings dispatcher lease).told hs).map (·.2)) := by
  induction hs using List.reverseRec with
  | nil => exact ⟨(fun e he => nomatch he), (fun n hn => nomatch hn)⟩
  | append_singleton hs a ih =>
    rw [run_concat, told_concat, List.map_append]
    exact ih.after ((Reachable.start clock settings dispatcher lease).run hs) a

/-! ## Silence -/

/-- An operation of which nobody is told: it fails, or the records stay as they are, or it repeats a
release or a confirmation. -/
inductive Service.NothingNew (v : Service) (by' : Caller) : Operation → Prop
  | failed {op : Operation} {f : Failure} (h : (v.perform by' op).1 = .error f) :
      NothingNew v by' op
  | unchanged {op : Operation} (h : (v.perform by' op).2.1.store = v.store) : NothingNew v by' op
  | released {e : Escrow} (he : e ∈ v.store.escrows) (hs : e.status = .completed) (manual : Bool) :
      NothingNew v by' (.task e.id (.release manual))
  | confirmed {c : Condition} (hc : c ∈ v.store.conditions) (hm : c.met = true) :
      NothingNew v by' (.confirm c.id)

section Silence

variable {v : Service} {by' : Caller} {op : Operation}

/-- Where something is announced the records have changed: there is an event of it. -/
theorem Operation.Comes.store_ne {env : Surroundings} {seen s : Store} {c : Counters}
    {o : Outcome Answer} (h : op.Comes env by' seen s c o) {n : Notification}
    (hn : o.announced = some n) : o.store ≠ s := by
  intro hsame
  cases h with
  | failed h =>
    rw [h.announced] at hn
    cases hn
  | idle log a => cases hn
  | created =>
    have hescrows := congrArg Store.escrows hsame
    exact List.cons_ne_nil _ _ (List.append_right_eq_self.mp hescrows)
  | @done o d w paid hx h answer =>
    have hlog : o.store.logOf d.id = s.logOf d.id := congrArg (·.logOf d.id) hsame
    rw [h.store, Store.logOf_enterAll] at hlog
    have hmirrors := h.deed.mirrors env.now (c.events + 1)
      ((s.changed env.now d.id w).nextSequence d.id)
    have hn : o.announced = some n := hn
    rw [List.append_right_eq_self.mp hlog, ← h.announced, hn] at hmirrors
    cases hmirrors

/-- What is asked of a closed escrow announces nothing. -/
theorem Operation.Comes.announced_of_closed {env : Surroundings} {s : Store} {c : Counters}
    {o : Outcome Answer} (hk : Kept s c) (h : op.Comes env by' s s c o) {e : Escrow}
    (he : e ∈ s.escrows) (hx : op.target? s = some e.id) (ht : e.status.isTerminal = true) :
    o.announced = none := by
  cases h with
  | failed h => exact h.announced
  | idle log a => rfl
  | created hop =>
    rw [hop] at hx
    cases hx
  | @done o d w paid hd h answer =>
    rw [hd] at hx
    obtain rfl : d = e := List.inj_on_of_nodup_map hk.distinct
      (List.mem_of_find?_eq_some h.stored) he (Option.some.inj hx)
    show o.announced = none
    rw [h.announced, (h.deed.come_of_isTerminal ht).1.announcement_eq]
    rfl

/-- Nobody is told of an operation that brings nothing new. -/
theorem Service.announced_of_nothingNew (hv : Reachable v) (h : v.NothingNew by' op) :
    v.announced by' op = none := by
  have hcomes := op.run_comes v.surroundings hv.kept.sound by' v.store v.counters
  cases h with
  | @failed _ f hf =>
    generalize hrun : op.run v.surroundings by' v.store v.store v.counters = o at hcomes
    have hresult : o.result = .error f := hrun ▸ hf
    rw [announced, hrun]
    cases hcomes with
    | failed h => exact h.announced
    | idle log a => rfl
    | created => cases hresult
    | done hx h answer =>
      rw [Outcome.mapResult, h.result] at hresult
      cases hresult
  | unchanged hsame =>
    cases hn : v.announced by' op with
    | none => rfl
    | some n => exact absurd hsame (hcomes.store_ne hn)
  | released he hs manual => exact hcomes.announced_of_closed hv.kept he rfl (by rw [hs]; rfl)
  | @confirmed c hc hm =>
    have hfound : v.store.condition? c.id = some c :=
      (find?_eq_some_iff_mem hv.kept.conditionsDistinct).mpr hc
    simp only [announced, Operation.run, confirmCondition, hfound, hm, if_true]
    split <;> rfl

end Silence

/-- In every run the notifications about an escrow tell its log: one for each event, in order, but for
those that a condition is met, and there is none about anything else. While the dispatcher works
others get what it makes of these, and of an operation that brings nothing new there is none. -/
theorem notifications_mirror_log (clock : Int) (settings : Settings) (dispatcher : Dispatcher)
    (lease : Option Lease) {hs : List Happening}
    (hworks : ∀ r, .dispatcherBreaks (some r) ∉ hs) :
    let v₀ := Service.start clock settings dispatcher lease
    let v := v₀.run hs
    (v₀.shown hs).Delivers (dispatcher.deliver (v₀.told hs)) ∧
      (∀ e ∈ v.store.escrows, List.Forall₂ (Mirrors e)
        ((v.store.eventsOf e.id).filter fun b => b.type ≠ .conditionMet)
        (((v₀.told hs).map (·.2)).filter fun n => n.escrow? = some e.id.text)) ∧
      (∀ t ∈ v₀.told hs, ∃ e ∈ v.store.escrows, t.2.escrow? = some e.id.text) ∧
      ∀ u by' op, Did v₀ hs u by' op → u.NothingNew by' op → u.announced by' op = none := by
  intro v₀ v
  have hstart : Reachable v₀ := .start clock settings dispatcher lease
  have hmirrored := Service.mirrored_run clock settings dispatcher lease hs
  refine ⟨Service.delivers_shown rfl hworks, fun e he => ?_, fun t ht => ?_, ?_⟩
  · rw [(hstart.run hs).eventsOf_eq_logOf]
    exact hmirrored.mirror e he
  · exact hmirrored.known t.2 (List.mem_map_of_mem ht)
  · rintro u by' op ⟨pre, post, -, rfl⟩ hnothing
    exact Service.announced_of_nothingNew (hstart.run pre) hnothing

/-- The sale from its offer to the payment, with a confirmation that is made twice. -/
def closedDeal : List Happening :=
  .operation ⟨"buyer", none⟩ (.create sale) :: takenUp ++
    [.operation ⟨"seller", none⟩ (.confirm (Identifier.condition 2)),
      .operation ⟨"buyer", none⟩ (.confirm (Identifier.condition 1))]

/-- A service before its first escrow, with a dispatcher that keeps what it is given. -/
def emptyService : Service := Service.start 0 Settings.usual .recorder none

/-- Of the six events of the sale four were told. -/
theorem notifications_mirror_log_closedDeal :
    (emptyService.shown closedDeal).sent.map (·.event) =
        ["escrow.created", "escrow.updated", "escrow.activated", "escrow.released"] ∧
      (emptyService.run closedDeal).store.events.length = 6 ∧
      ∃ e ∈ (emptyService.run closedDeal).store.escrows, e.status = .completed ∧
        List.Forall₂ (Mirrors e)
          (((emptyService.run closedDeal).store.eventsOf e.id).filter fun b => b.type ≠ .conditionMet)
          ((emptyService.shown closedDeal).sent.filter fun n => n.escrow? = some e.id.text) := by
  have hworks : ∀ r, .dispatcherBreaks (some r) ∉ closedDeal := by simp [closedDeal, takenUp]
  obtain ⟨hdelivers, hmirrors, -, -⟩ :=
    notifications_mirror_log 0 Settings.usual .recorder none hworks
  have hempty : Service.start 0 Settings.usual .recorder none = emptyService := rfl
  rw [hempty] at hdelivers hmirrors
  have hsent : (emptyService.shown closedDeal).sent = (emptyService.told closedDeal).map (·.2) :=
    hdelivers.sent.trans (Dispatcher.sent_deliver_recorder _)
  have hevents : ((emptyService.told closedDeal).map (·.2)).map (·.event) =
      ["escrow.created", "escrow.updated", "escrow.activated", "escrow.released"] := by
    decide +kernel
  obtain ⟨e, he, hs⟩ : ∃ e ∈ (emptyService.run closedDeal).store.escrows,
      e.status = .completed := by decide +kernel
  rw [hsent]
  exact ⟨hevents, by decide +kernel, e, he, hs, hmirrors e he⟩

end Custody

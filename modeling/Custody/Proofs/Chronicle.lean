import Mathlib.Data.List.Chain
import Custody.Proofs.Life
import Custody.Proofs.Settlement

/-!
# The audit log as a chronicle

An operation writes the status that it found and the status that it left into every event it
records, and nothing checks that the two fit what is written already. They do: the log of an
escrow is a chronicle, without a gap in its numbers and without a gap in its story.

> `Deed.leads`: the events of a deed lead from the status it found to the one it left.
> `Life.chronicle`: the log of a life is a chronicle of it.
> `log_well_formed`: so is every log of a run, and nothing that happens changes what is in one.
-/

namespace Custody

/-! ## Passages -/

/-- The passages from a status to a status that an event of a type may record. A creation comes from
no status. -/
def EventType.passages : EventType → List (Status × Status)
  | .created => []
  | .updated => [(.pending, .pending)]
  | .conditionMet => [(.active, .active)]
  | .activated => [(.pending, .active)]
  | .disputed => [(.active, .disputed)]
  | .completed => [(.active, .completed), (.disputed, .completed)]
  | .cancelled => [(.pending, .cancelled), (.active, .cancelled), (.disputed, .cancelled)]
  | .expired => [(.pending, .cancelled), (.active, .cancelled)]

/-- Drafts that lead from a status to a status, each by a passage of its type. -/
inductive Leads : Status → List EventDraft → Status → Prop
  | stay (s : Status) : Leads s [] s
  | go {s t u : Status} {d : EventDraft} {ds : List EventDraft} (hp : (s, t) ∈ d.type.passages)
      (ho : d.oldStatus = some s) (hn : d.newStatus = some t) (h : Leads t ds u) :
      Leads s (d :: ds) u

section Deeds

variable {by' : Caller} {e : Escrow} {cs : List Condition} {w : Writes}
  {paid : Option (SettleRequest × String)}

/-- An action that is permitted to someone is open in the status. -/
theorem permission_of_permit {a : Action} {actor : String} (h : permit e actor a = .ok ()) :
    permission a e.status ≠ .nobody := by
  rcases permit_eq_ok_iff.mp h with hp | ⟨rs, hp, -⟩ <;> rw [hp] <;> exact fun hn => nomatch hn

/-- A deed on an escrow that is closed writes nothing and pays nobody. -/
theorem Deed.come_of_isTerminal (h : Deed by' e cs w paid) (ht : e.status.isTerminal = true) :
    w.Come none none [] none ∧ paid = none := by
  have closed : ∀ a, permit e by'.user a ≠ .ok () := by
    intro a hp
    refine permission_of_permit hp ?_
    revert ht
    cases e.status <;> cases a <;> simp [permission, Status.isTerminal]
  cases h with
  | sameTerms _ hw | releasedBefore _ hw | metBefore _ _ hw => exact ⟨hw, rfl⟩
  | terms hp | activation hp | dispute hp | cancellation hp | expiry hp | refund hp | decided hp =>
    exact absurd hp (closed _)
  | confirmation _ _ hp | lastConfirmation _ _ hp => exact absurd hp (closed _)
  | release hs =>
    rw [hs] at ht
    cases ht

theorem Writes.status_view {p : Patch} (hp : w.patch = some p) (now : Moment) :
    (w.view now e).status = (p.apply e).status := by
  rw [view, hp]
  rfl

theorem Writes.view_of_none (hp : w.patch = none) (now : Moment) : w.view now e = e := by
  rw [view, hp]

/-- Writes leave the people of an escrow as they were. -/
theorem Writes.view_people (w : Writes) (now : Moment) (e : Escrow) :
    (w.view now e).parties = e.parties ∧ (w.view now e).creator = e.creator := by
  unfold view
  split
  next p _ =>
    cases p with
    | terms changes =>
      obtain ⟨t, d, m, h⟩ := foldl_apply changes e
      simp only [Patch.applyAt, Patch.apply, h, and_self]
    | _ => exact ⟨rfl, rfl⟩
  next => exact ⟨rfl, rfl⟩

theorem Writes.status_terms {changes : List Change} (hp : w.patch = some (.terms changes))
    (now : Moment) : (w.view now e).status = e.status := by
  obtain ⟨t, d, m, h⟩ := foldl_apply changes e
  rw [status_view hp, Patch.apply, h]

/-- The events of a deed lead from the status it found to the one it left. -/
theorem Deed.leads (h : Deed by' e.loaded cs w paid) (now : Moment) :
    Leads e.status w.drafts (w.view now e).status := by
  -- One draft does for every deed but the confirmation that releases.
  have single : ∀ {d : EventDraft} {t : Status}, w.drafts = [d] → (e.status, t) ∈ d.type.passages →
      d.oldStatus = some e.status → d.newStatus = some t → (w.view now e).status = t →
      Leads e.status w.drafts (w.view now e).status := by
    rintro d t hd hp ho hn rfl
    rw [hd]
    exact .go hp ho hn (.stay _)
  have idle : w.drafts = [] → w.patch = none →
      Leads e.status w.drafts (w.view now e).status := by
    intro hd hp
    rw [hd, Writes.view_of_none hp]
    exact .stay _
  -- What is permitted in a status is recorded as a passage from it.
  have passage : ∀ {a : Action} (type : EventType) (f : Status → Status),
      permit e.loaded by'.user a = .ok () →
      (∀ s, permission a s ≠ .nobody → (s, f s) ∈ type.passages) →
      (e.status, f e.status) ∈ type.passages :=
    fun _ f hp hf => hf _ (permission_of_permit hp)
  cases h with
  | sameTerms _ hw | releasedBefore _ hw | metBefore _ _ hw => exact idle hw.drafts_eq hw.patch_eq
  | terms hp _ hw =>
    exact single hw.drafts_eq (passage .updated id hp fun s => by cases s <;> decide) rfl rfl
      (Writes.status_terms hw.patch_eq now)
  | activation hp hw =>
    exact single hw.drafts_eq
      (passage .activated (fun _ => .active) hp fun s => by cases s <;> decide) rfl rfl
      (Writes.status_view hw.patch_eq now)
  | dispute hp hw =>
    exact single hw.drafts_eq
      (passage .disputed (fun _ => .disputed) hp fun s => by cases s <;> decide) rfl rfl
      (Writes.status_view hw.patch_eq now)
  | cancellation hp hw | refund hp hw =>
    exact single hw.drafts_eq
      (passage .cancelled (fun _ => .cancelled) hp fun s => by cases s <;> decide) rfl rfl
      (Writes.status_view hw.patch_eq now)
  | expiry hp _ _ _ hw =>
    exact single hw.drafts_eq
      (passage .expired (fun _ => .cancelled) hp fun s => by cases s <;> decide) rfl rfl
      (Writes.status_view hw.patch_eq now)
  | decided hp _ hw =>
    exact single hw.drafts_eq
      (passage .completed (fun _ => .completed) hp fun s => by cases s <;> decide) rfl rfl
      (Writes.status_view hw.patch_eq now)
  | release hs _ _ _ hw =>
    have hs : (e.status, Status.completed) ∈ EventType.completed.passages := by
      rw [show e.status = .active from hs]
      decide
    exact single hw.drafts_eq hs rfl rfl (Writes.status_view hw.patch_eq now)
  | confirmation _ _ hp _ hw =>
    exact single hw.drafts_eq (passage .conditionMet id hp fun s => by cases s <;> decide) rfl rfl
      (congrArg Escrow.status (Writes.view_of_none hw.patch_eq now))
  | lastConfirmation _ _ _ hs _ _ _ hw =>
    -- The condition is met while the escrow is active, and only then is it completed.
    have hs : e.status = .active := hs
    rw [hw.drafts_eq, Writes.status_view hw.patch_eq, hs]
    have met : (.active, .active) ∈ EventType.conditionMet.passages := by decide
    have completed : (.active, .completed) ∈ EventType.completed.passages := by decide
    exact .go met (congrArg some hs) (congrArg some hs)
      (.go completed (congrArg some hs) rfl (.stay _))

/-- What one event of a deed says, with what allowed it. -/
inductive Act (by' : Caller) (e : Escrow) (cs : List Condition) (w : Writes) : EventDraft → Prop
  | updated {r : UpdateRequest} (hp : permit e by'.user .update = .ok ())
      (hc : changesOf e r ≠ []) :
      Act by' e cs w ⟨.updated, by'.user, some e.status, some e.status, .updated (changesOf e r),
        by'.address⟩
  | activated {t : Option String} (hp : permit e by'.user .activate = .ok ()) :
      Act by' e cs w ⟨.activated, by'.user, some e.status, some .active, .activated t, by'.address⟩
  | disputed {reason : Option String} (hp : permit e by'.user .raiseDispute = .ok ()) :
      Act by' e cs w ⟨.disputed, by'.user, some e.status, some .disputed, .disputed reason,
        by'.address⟩
  | cancelled {reason : Option String} (hp : permit e by'.user .cancel = .ok ()) :
      Act by' e cs w (leavingDraft by' e .cancelled (.cancelled none reason e.status))
  | expired {reason : String} {d : Moment} (hp : permit e by'.user .expire = .ok ())
      (hd : normalizeMoment e.deadline = .ok (some d)) (hw : w.patch = some .cancellation) :
      Act by' e cs w (leavingDraft by' e .expired (.expired reason d e.status))
  | refunded {note : Option String} {reason : String}
      (hp : permit e by'.user .resolveDispute = .ok ()) :
      Act by' e cs w (leavingDraft by' e .cancelled
        (.cancelled (some (.refund, note)) (some reason) e.status))
  | decided {note : Option String} {b t : String}
      (hp : permit e by'.user .resolveDispute = .ok ()) (hb : e.recipient? = some b) :
      Act by' e cs w (paymentDraft by' e (.decision .release note) b t)
  | released {manual : Bool} {b t : String} (hs : e.status = .active)
      (hp : permitRelease e cs manual by' = .ok ()) (hb : e.recipient? = some b) :
      Act by' e cs w (paymentDraft by' e (.request manual) b t)
  | confirmed {c : Condition} (hp : permit e by'.user .confirmCondition = .ok ())
      (hm : w.met = some (c.id, by'.user)) : Act by' e cs w (confirmationDraft by' e c)
  | followed {c : Condition} {b t : String} (hs : e.status = .active)
      (ho : ∀ d ∈ cs, d.id ≠ c.id → d.met = true) (hm : w.met = some (c.id, by'.user))
      (hb : e.recipient? = some b) :
      Act by' e cs w (paymentDraft ⟨e.creator, by'.address⟩ e (.request false) b t)

/-- Every event of a deed says one of these things. -/
theorem Deed.act (h : Deed by' e cs w paid) : ∀ d ∈ w.drafts, Act by' e cs w d := by
  have one : ∀ {d : EventDraft}, Act by' e cs w d → w.drafts = [d] →
      ∀ d ∈ w.drafts, Act by' e cs w d := by
    intro d ha hd d' hd'
    rw [hd] at hd'
    rw [List.mem_singleton.mp hd']
    exact ha
  cases h with
  | sameTerms _ hw | releasedBefore _ hw | metBefore _ _ hw =>
    rw [hw.drafts_eq]
    exact fun d hd => nomatch hd
  | terms hp hc hw => exact one (.updated hp hc) hw.drafts_eq
  | activation hp hw => exact one (.activated hp) hw.drafts_eq
  | dispute hp hw => exact one (.disputed hp) hw.drafts_eq
  | cancellation hp hw => exact one (.cancelled hp) hw.drafts_eq
  | expiry hp hd _ _ hw => exact one (.expired hp hd hw.patch_eq) hw.drafts_eq
  | refund hp hw => exact one (.refunded hp) hw.drafts_eq
  | decided hp hb hw => exact one (.decided hp hb) hw.drafts_eq
  | release hs _ hp hb hw => exact one (.released hs hp hb) hw.drafts_eq
  | confirmation _ _ hp _ hw => exact one (.confirmed hp hw.met_eq) hw.drafts_eq
  | lastConfirmation _ _ hp hs _ ho hb hw =>
    rw [hw.drafts_eq]
    intro d hd
    rcases List.mem_pair.mp hd with rfl | rfl
    · exact .confirmed hp hw.met_eq
    · exact .followed hs ho hw.met_eq hb

end Deeds

/-- What is true of the creation and of every event that a deed enters, and stays true whatever is
done later, is true of every event in the log of a life. -/
theorem Life.forall_events {by' : Caller} {n : NewEscrow} {e : Escrow} {cs : List Condition}
    {es : List Event} {P : Escrow → List Condition → Event → Prop} (h : Life by' n e cs es)
    (created : ∀ {e : Escrow} {cs : List Condition}, e.creator = by'.user →
      ∀ (now : Moment) (i : Nat), P e cs ((creationDraft e cs.length by').entered now e.id i 1))
    (kept : ∀ {e : Escrow} {cs : List Condition} {who : Caller} {w : Writes}
      {paid : Option (SettleRequest × String)}, Deed who e.loaded cs w paid →
      ∀ (now : Moment) {b : Event}, P e cs b →
        P (w.view now e) (cs.map (w.onCondition now)) b)
    (entered : ∀ {e : Escrow} {cs : List Condition} {es : List Event} {who : Caller} {w : Writes}
      {d : EventDraft}, Life by' n e cs es → Act who e.loaded cs w d →
      ∀ (now : Moment) (i j : Nat),
        P (w.view now e) (cs.map (w.onCondition now)) (d.entered now e.id i j)) :
    ∀ b ∈ es, P e cs b := by
  induction h with
  | @created ps t asset x now k i e cs hn hf he hc =>
    intro b hb
    have hx : e.id = x := congrArg Escrow.id he
    rw [List.mem_singleton.mp hb, ← hx]
    exact created (congrArg Escrow.creator he) now i
  | deed h hd now i ih =>
    intro b hb
    rcases List.mem_append.mp hb with hb | hb
    · exact kept hd now (ih b hb)
    · obtain ⟨d, hdm, i, j, rfl⟩ := mem_enterDrafts hb
      exact entered h (hd.act d hdm) now i j

/-! ## Chronicles -/

/-- A well-formed log of an escrow in a status. It is numbered from 1 on, begins with the
creation, goes on only by passages that its types allow, each from where the one before it ended,
and ends where the escrow is. -/
structure Chronicle (es : List Event) (s : Status) : Prop where
  numbered : es.map (·.sequence) = List.range' 1 es.length
  first : ∃ b, es.head? = some b ∧ b.type = .created ∧ b.oldStatus = none ∧
    b.newStatus = some (word Status.pending)
  lawful : ∀ b ∈ es.tail, ∃ p ∈ b.type.passages,
    b.oldStatus = some (word p.1) ∧ b.newStatus = some (word p.2)
  chained : es.IsChain fun a b => b.oldStatus = a.newStatus
  last : ∃ b, es.getLast? = some b ∧ b.newStatus = some (word s)

section Chronicles

variable {es : List Event} {s t : Status}

/-- A chronicle goes on with an event that records a passage from where it ended. -/
theorem Chronicle.concat (h : Chronicle es s) {b : Event} (hk : b.sequence = es.length + 1)
    (hp : (s, t) ∈ b.type.passages) (ho : b.oldStatus = some (word s))
    (hn : b.newStatus = some (word t)) : Chronicle (es ++ [b]) t := by
  obtain ⟨a, ha, hfirst⟩ := h.first
  obtain ⟨l, hl, hls⟩ := h.last
  obtain ⟨rest, rfl⟩ : ∃ rest, es = a :: rest := List.head?_eq_some_iff.mp ha
  constructor
  case numbered =>
    rw [List.map_append, h.numbered, List.map_singleton, hk, List.length_append,
      List.length_singleton, List.range'_1_concat, Nat.add_comm]
  case first => exact ⟨a, rfl, hfirst⟩
  case lawful =>
    intro c hc
    rcases List.mem_append.mp (show c ∈ rest ++ [b] from hc) with hc | hc
    · exact h.lawful c hc
    · rw [List.mem_singleton.mp hc]
      exact ⟨(s, t), hp, ho, hn⟩
  case chained =>
    refine List.isChain_append.mpr ⟨h.chained, List.isChain_singleton _, fun x hx y hy => ?_⟩
    rw [hl] at hx
    cases hx
    cases hy
    exact ho.trans hls.symm
  case last => exact ⟨b, List.getLast?_concat, hn⟩

/-- A chronicle goes on with drafts that lead from where it ended. -/
theorem Chronicle.enter (h : Chronicle es s) {ds : List EventDraft} (hd : Leads s ds t)
    (now : Moment) (x : Identifier) (i : Nat) :
    Chronicle (es ++ enterDrafts now x i (es.length + 1) ds) t := by
  -- The induction is on the drafts that are left; those entered already are part of the log.
  induction hd generalizing es i with
  | stay s =>
    rw [enterDrafts, List.append_nil]
    exact h
  | @go s t u d ds hp ho hn hd ih =>
    have hnext := h.concat (b := d.entered now x i (es.length + 1)) rfl hp
      (congrArg (Option.map word) ho) (congrArg (Option.map word) hn)
    have hrest := ih hnext (i + 1)
    rw [List.append_assoc, List.length_append, List.length_singleton] at hrest
    exact hrest

/-- The log of a life is a chronicle of it. -/
theorem Life.chronicle {by' : Caller} {n : NewEscrow} {e : Escrow} {cs : List Condition}
    (h : Life by' n e cs es) : Chronicle es e.status := by
  induction h with
  | created hn hf he hc =>
    subst he
    exact ⟨rfl, ⟨_, rfl, rfl, rfl, rfl⟩, (fun b hb => nomatch hb), List.isChain_singleton _,
      ⟨_, rfl, rfl⟩⟩
  | deed h hd now i ih => exact ih.enter (hd.leads now) now _ i

/-! ## Events that happen once -/

/-- An event of the type leads out of the statuses `f`, and no passage leads back into them. -/
def EventType.Leaves (type : EventType) (f : Status → Bool) : Prop :=
  ∀ type' : EventType, ∀ p ∈ type'.passages,
    (if type' = type then 1 else 0) + (f p.2).toNat ≤ (f p.1).toNat

theorem EventType.activated_leaves : activated.Leaves (· = .pending) := by
  intro type'
  cases type' <;> decide

theorem EventType.completed_leaves : completed.Leaves (!·.isTerminal) := by
  intro type'
  cases type' <;> decide

theorem Leads.length_filter_le {type : EventType} {f : Status → Bool} (hf : type.Leaves f)
    {ds : List EventDraft} (h : Leads s ds t) :
    (ds.filter fun d => d.type = type).length + (f t).toNat ≤ (f s).toNat := by
  induction h with
  | stay s => simp
  | @go s t u d ds hp ho hn h ih =>
    have hstep := hf d.type (s, t) hp
    rw [List.filter_cons]
    by_cases hd : d.type = type
    · simp only [hd, decide_true, if_true, List.length_cons] at hstep ⊢
      omega
    · simp only [hd, decide_false, Bool.false_eq_true, if_false] at hstep ⊢
      omega

/-- What leaves the first status for good happens once in a life. -/
theorem Life.length_filter_le {by' : Caller} {n : NewEscrow} {e : Escrow} {cs : List Condition}
    (h : Life by' n e cs es) {type : EventType} {f : Status → Bool} (hf : type.Leaves f)
    (hc : type ≠ .created) :
    (es.filter fun b => b.type = type).length + (f e.status).toNat ≤ 1 := by
  -- The second summand is the event that is still possible. A deed that records it gives it up.
  induction h with
  | created _ _ he _ =>
    subst he
    rw [List.filter_cons_of_neg fun h => hc (of_decide_eq_true h).symm, List.filter_nil,
      List.length_nil, Nat.zero_add]
    exact Bool.toNat_le _
  | @deed e cs es who w paid h hd now i ih =>
    have hdeed := (hd.leads now).length_filter_le hf
    rw [List.filter_append, List.length_append,
      length_filter_enterDrafts (p := fun d => d.type = type) fun _ _ _ => rfl]
    omega

/-- After an event of such a type there is no other. -/
theorem Life.type_ne_of_split {by' : Caller} {n : NewEscrow} {e : Escrow} {cs : List Condition}
    {front rest : List Event} {b : Event} (h : Life by' n e cs (front ++ b :: rest))
    {f : Status → Bool} (hf : b.type.Leaves f) (hc : b.type ≠ .created) :
    ∀ a ∈ rest, a.type ≠ b.type := by
  intro a ha hab
  have hle := h.length_filter_le hf hc
  have hpos : 0 < (rest.filter fun a => a.type = b.type).length :=
    List.length_pos_of_mem (List.mem_filter.mpr ⟨ha, decide_eq_true hab⟩)
  have hb : decide (b.type = b.type) = true := decide_eq_true rfl
  rw [List.filter_append, List.filter_cons, if_pos hb, List.length_append, List.length_cons] at hle
  omega

end Chronicles

/-! ## The log of a run -/

/-- An operation adds to the events and changes none of them. -/
theorem Effect.keeps_events {v u : Service} {by' : Caller} (h : Effect v by' u) :
    v.store.events <+: u.store.events := by
  cases h with
  | nothing => exact List.prefix_rfl
  | creation => exact List.prefix_append ..
  | deed =>
    rw [Store.events_enterAll_eq]
    exact List.prefix_append ..

/-- Whatever happens adds to the events and changes none of them. -/
theorem Reachable.keeps_events {v : Service} (hv : Reachable v) (a : Happening) :
    v.store.events <+: (v.after a).store.events := by
  cases a with
  | operation by' op => exact (Service.perform_effect hv.kept.sound by' op).keeps_events
  | _ => exact List.prefix_rfl

/-- In every service that a run leads to, the log of every escrow is a chronicle that ends in its
status, and whatever happens to the service leaves each log the beginning of the later one. -/
theorem log_well_formed {v : Service} (hv : Reachable v) :
    (∀ e ∈ v.store.escrows, Chronicle (v.store.eventsOf e.id) e.status) ∧
      ∀ (a : Happening) (x : Identifier),
        v.store.eventsOf x <+: (v.after a).store.eventsOf x := by
  constructor
  · intro e he
    obtain ⟨by', n, hl⟩ := hv.life he
    exact hl.chronicle
  · intro a x
    -- Both logs are read back as they stand, and events are only ever added at the end.
    rw [hv.eventsOf_eq_logOf, (hv.step a).eventsOf_eq_logOf]
    exact (hv.keeps_events a).filter _

/-- The log of the sale tells it from its creation to the payment, which comes right after the
condition that brought it about. -/
theorem log_well_formed_paidService :
    (∃ e ∈ paidService.store.escrows, e.status = .completed ∧
        Chronicle (paidService.store.eventsOf e.id) .completed) ∧
      paidService.store.events.map (·.type) =
        [.created, .activated, .conditionMet, .conditionMet, .completed] ∧
      ∀ (a : Happening) (x : Identifier),
        paidService.store.eventsOf x <+: (paidService.after a).store.eventsOf x := by
  have hreachable : Reachable paidService := soldService_reachable.run _
  obtain ⟨hlogs, hkeeps⟩ := log_well_formed hreachable
  have hstatus : .completed ∈ paidService.store.escrows.map (·.status) := by decide +kernel
  obtain ⟨e, he, hs⟩ := List.mem_map.mp hstatus
  refine ⟨⟨e, he, hs, ?_⟩, by decide +kernel, hkeeps⟩
  rw [← hs]
  exact hlogs e he

end Custody

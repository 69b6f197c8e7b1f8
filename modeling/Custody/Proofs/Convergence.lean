import Custody.Proofs.Completion
import Custody.Proofs.Outsider
import Custody.Proofs.Progress
import Custody.Proofs.Rest

/-!
# Confirmations in any order

Who confirms which condition first, how often, and who is turned away meanwhile makes no difference
in the end. As long as nobody does anything else to an active escrow and the ledger pays, all that
counts is which conditions the parties have named. While one of them is not named yet the escrow
stays active, and with the last one it is completed, once and for good.

The proof goes along the calls and takes the first one off: a confirmation either leaves an active
escrow with one more condition met, from which the rest goes on, or it was the last one, and
nothing that comes after it counts.

> `Reachable.confirm_step`: what one confirmation of an open condition does.
> `Reachable.part_after`: what else happens leaves the escrow as it was.
> `Reachable.converged`: where a run of them leads, told by the conditions that were named.
> `confirmations_converge`: so runs that name the same conditions come to the same.
-/

namespace Custody

/-! ## Calls -/

/-- Whether a happening is a call of a party of an escrow to confirm a condition. -/
def Happening.names (e : Escrow) (k : Identifier) : Happening → Bool
  | .operation by' (.confirm j) => j = k && e.parties.any fun p => p.user = by'.user
  | _ => false

/-- Whether a party of an escrow names a condition in the course of happenings. -/
def named (e : Escrow) (hs : List Happening) (k : Identifier) : Bool := hs.any (·.names e k)

theorem named_cons (e : Escrow) (a : Happening) (hs : List Happening) (k : Identifier) :
    named e (a :: hs) k = (a.names e k || named e hs k) := rfl

/-- A happening that leaves an escrow to the confirmations of its conditions, and everything that a
confirmation needs in order. -/
def Happening.LeavesTo (x : Identifier) : Happening → Prop
  | .operation _ (.task y _) => y ≠ x
  | .ledgerFails f => f = none
  | .databaseBreaks r => r = none
  | .lease l => (l.any fun l => !l.acquired) = false
  | _ => True

/-- A service at which nothing is out of order. -/
structure Service.Steady (v : Service) : Prop where
  order : v.surroundings.InOrder
  ledger : v.ledger.failing = none

namespace Service

variable {v : Service} {x : Identifier}

/-- A settlement does not make a ledger fail. -/
theorem failing_ledgerAfter (l : SimulatedLedger) (asked : Option SettleRequest) :
    (ledgerAfter l asked).failing = l.failing := by
  cases asked with
  | none => rfl
  | some r =>
    simp only [ledgerAfter, SimulatedLedger.settle]
    cases l.answer <;> rfl

theorem Steady.after (h : v.Steady) {a : Happening} (ha : a.LeavesTo x) : (v.after a).Steady := by
  obtain ⟨⟨hd, hl⟩, hf⟩ := h
  cases a with
  | operation by' op =>
    refine ⟨⟨hd, hl⟩, ?_⟩
    show (ledgerAfter v.ledger _).failing = none
    rw [failing_ledgerAfter]
    exact hf
  | ledgerFails f => exact ⟨⟨hd, hl⟩, ha⟩
  | databaseBreaks r => exact ⟨⟨ha, hl⟩, hf⟩
  | lease l => exact ⟨⟨hd, ha⟩, hf⟩
  | _ => exact ⟨⟨hd, hl⟩, hf⟩

/-- A ledger that does not fail pays. -/
theorem Steady.verdict (h : v.Steady) (r : SettleRequest) (x : Identifier) :
    (v.ask r).verdict x = .ok () := by
  unfold LedgerAnswer.verdict
  rw [ask_result, SimulatedLedger.answer, h.ledger]

end Service

/-! ## Where they lead -/

/-- The conditions among some that are open and named. -/
def newlyMet (k : Identifier → Bool) (cs : List Condition) : List Condition :=
  cs.filter fun c => !c.met && k c.id

/-- What an event tells of the confirmation of a condition. -/
def Condition.confirmation (c : Condition) : EventData := .conditionMet c.id c.description

/-- Events that tell of the confirmations of conditions, one event each, in some order. -/
structure TellOf (bs : List Event) (cs : List Condition) : Prop where
  type : ∀ b ∈ bs, b.type = .conditionMet
  data : (bs.map (·.data)).Perm (cs.map (·.confirmation))

/-- A service at which an escrow, which was active with some conditions and events in its log, has
been left to its conditions, and `k` tells which of them parties have named. -/
structure Converged (e : Escrow) (cs : List Condition) (es : List Event) (k : Identifier → Bool)
    (u : Service) : Prop where
  /-- The conditions are the same, and of those that were open just the named ones are met. -/
  conditions : (u.store.conditionsOf e.id).map (fun c => (c.id, c.met)) =
    cs.map fun c => (c.id, c.met || k c.id)
  /-- With all of them named the escrow is completed, and its only seller has been paid once. -/
  completed : (∀ c ∈ cs, (c.met || k c.id) = true) →
    ∃ e' bs b, u.store.stored? e.id = some e' ∧ e'.status = .completed ∧
      u.store.eventsOf e.id = es ++ bs ++ [b] ∧ TellOf bs (newlyMet k cs) ∧ b.type = .completed ∧
      ∃ user t, ⟨user, .seller⟩ ∈ e.parties ∧
        u.ledger.settlementsOf e.id = [⟨e.id.text, user, t⟩]
  /-- Otherwise it stays as it was, and nobody has been paid. -/
  active : (∃ c ∈ cs, (c.met || k c.id) = false) →
    u.store.stored? e.id = some e ∧ u.ledger.settlementsOf e.id = [] ∧
      ∃ bs, u.store.eventsOf e.id = es ++ bs ∧ TellOf bs (newlyMet k cs)

theorem TellOf.length {bs : List Event} {cs : List Condition} (h : TellOf bs cs) :
    bs.length = cs.length := by
  simpa using h.data.length_eq

theorem TellOf.nil : TellOf [] [] := ⟨(fun _ hb => nomatch hb), .nil⟩

/-- An event more, in front of the others, tells of a condition more, wherever it stands. -/
theorem TellOf.cons {b : Event} {bs : List Event} {c : Condition} {cs ds : List Condition}
    (h : TellOf bs cs) (ht : b.type = .conditionMet) (hd : b.data = c.confirmation)
    (hp : ds.Perm (c :: cs)) : TellOf (b :: bs) ds := by
  refine ⟨fun b' hb' => ?_, ?_⟩
  · rcases List.mem_cons.mp hb' with rfl | hb'
    · exact ht
    · exact h.type b' hb'
  · rw [List.map_cons, hd]
    exact (h.data.cons _).trans (hp.symm.map _)

/-- Two services with equally much of an escrow: one status, the same conditions met, as many
settlements and as many events. -/
structure Service.Alike (v u : Service) (x : Identifier) : Prop where
  status : (v.store.stored? x).map (·.status) = (u.store.stored? x).map (·.status)
  conditions : (v.store.conditionsOf x).map (fun c => (c.id, c.met)) =
    (u.store.conditionsOf x).map fun c => (c.id, c.met)
  settlements : (v.ledger.settlementsOf x).length = (u.ledger.settlementsOf x).length
  events : (v.store.eventsOf x).length = (u.store.eventsOf x).length

section Ends

variable {e : Escrow} {cs : List Condition} {es : List Event} {k : Identifier → Bool} {u : Service}

/-- It does not matter whether a condition is named that was met before. -/
theorem Converged.congr (h : Converged e cs es k u) {k' : Identifier → Bool}
    (hk : ∀ c ∈ cs, (c.met || k c.id) = (c.met || k' c.id)) : Converged e cs es k' u := by
  have hnew : newlyMet k cs = newlyMet k' cs := by
    refine List.filter_congr fun c hc => ?_
    have hc := hk c hc
    revert hc
    cases c.met <;> simp
  refine ⟨h.conditions.trans (List.map_congr_left fun c hc => by rw [hk c hc]), fun hall => ?_,
    fun hsome => ?_⟩
  · rw [← hnew]
    exact h.completed fun c hc => (hk c hc).trans (hall c hc)
  · rw [← hnew]
    obtain ⟨c, hc, hopen⟩ := hsome
    exact h.active ⟨c, hc, (hk c hc).trans hopen⟩

/-- How much there is of the escrow in the end, the named conditions tell. -/
theorem Converged.alike {u' : Service} (h : Converged e cs es k u) (h' : Converged e cs es k u') :
    u.Alike u' e.id := by
  by_cases hall : ∀ c ∈ cs, (c.met || k c.id) = true
  · obtain ⟨f, bs, b, hf, hfs, hes, htell, -, _, _, -, hset⟩ := h.completed hall
    obtain ⟨f', bs', b', hf', hfs', hes', htell', -, _, _, -, hset'⟩ := h'.completed hall
    refine ⟨?_, h.conditions.trans h'.conditions.symm, ?_, ?_⟩
    · rw [hf, hf', Option.map_some, Option.map_some, hfs, hfs']
    · rw [hset, hset']
      rfl
    · rw [hes, hes']
      simp only [List.length_append, htell.length, htell'.length, List.length_singleton]
  · have hsome : ∃ c ∈ cs, (c.met || k c.id) = false := by
      simpa only [not_forall, exists_prop, Bool.not_eq_true] using hall
    obtain ⟨hstored, hset, bs, hes, htell⟩ := h.active hsome
    obtain ⟨hstored', hset', bs', hes', htell'⟩ := h'.active hsome
    refine ⟨by rw [hstored, hstored'], h.conditions.trans h'.conditions.symm, by rw [hset, hset'],
      ?_⟩
    rw [hes, hes', List.length_append, List.length_append, htell.length, htell'.length]

section Met

variable {w : Writes} {c : Condition} {user : String}

/-- For other conditions than the one that writes meet it only changes who is named. -/
theorem newlyMet_map_of_ne (hw : w.met = some (c.id, user)) (now : Moment) {l : List Condition}
    (hl : ∀ d ∈ l, d.id ≠ c.id) :
    newlyMet k (l.map (w.onCondition now)) = newlyMet (fun i => i = c.id || k i) l := by
  have hsame : l.map (w.onCondition now) = l.map id := by
    refine List.map_congr_left fun d hd => Writes.onCondition_miss ?_ now
    rw [hw]
    simpa using (hl d hd).symm
  rw [hsame, List.map_id]
  refine List.filter_congr fun d hd => ?_
  show (!d.met && k d.id) = (!d.met && (decide (d.id = c.id) || k d.id))
  rw [decide_eq_false (hl d hd), Bool.false_or]

/-- A condition that is met is one more of those that are newly met. -/
theorem newlyMet_perm (hn : (cs.map (·.id)).Nodup) (hc : c ∈ cs) (hm : c.met = false)
    (hw : w.met = some (c.id, user)) (now : Moment) :
    (newlyMet (fun i => i = c.id || k i) cs).Perm
      (c :: newlyMet k (cs.map (w.onCondition now))) := by
  -- The condition stands between others, which keep their order.
  obtain ⟨l₁, l₂, rfl⟩ := List.append_of_mem hc
  rw [List.map_append, List.map_cons, List.nodup_append, List.nodup_cons] at hn
  obtain ⟨-, ⟨hn₂, -⟩, hn₁⟩ := hn
  have hne₁ : ∀ d ∈ l₁, d.id ≠ c.id := fun d hd =>
    hn₁ _ (List.mem_map_of_mem hd) _ (List.mem_cons_self ..)
  have hne₂ : ∀ d ∈ l₂, d.id ≠ c.id := fun d hd hid => hn₂ (hid ▸ List.mem_map_of_mem hd)
  have hleft : newlyMet (fun i => i = c.id || k i) (l₁ ++ c :: l₂) =
      newlyMet (fun i => i = c.id || k i) l₁ ++ c :: newlyMet (fun i => i = c.id || k i) l₂ := by
    simp [newlyMet, List.filter_append, hm]
  have hright : newlyMet k ((l₁ ++ c :: l₂).map (w.onCondition now)) =
      newlyMet k (l₁.map (w.onCondition now)) ++ newlyMet k (l₂.map (w.onCondition now)) := by
    have hmet : (w.onCondition now c).met = true := by rw [Writes.onCondition_hit hw]
    simp [newlyMet, List.filter_append, hmet]
  rw [hleft, hright, newlyMet_map_of_ne hw now hne₁, newlyMet_map_of_ne hw now hne₂]
  exact List.perm_middle

/-- What comes of the rest comes of the whole, when it begins with a confirmation. -/
theorem Converged.confirmed (hn : (cs.map (·.id)).Nodup) (hc : c ∈ cs) (hm : c.met = false)
    (hw : w.met = some (c.id, user)) {now : Moment} {b : Event} (ht : b.type = .conditionMet)
    (hd : b.data = c.confirmation)
    (h : Converged e (cs.map (w.onCondition now)) (es ++ [b]) k u) :
    Converged e cs es (fun i => i = c.id || k i) u := by
  have hperm := newlyMet_perm (k := k) hn hc hm hw now
  have hmet : ∀ d, ((w.onCondition now d).met || k (w.onCondition now d).id) =
      (d.met || (d.id = c.id || k d.id)) := by
    intro d
    rw [Writes.onCondition_met, Writes.onCondition_id, hw, Bool.or_assoc]
    simp [eq_comm]
  refine ⟨?_, fun hall => ?_, fun hsome => ?_⟩
  · rw [h.conditions, List.map_map]
    exact List.map_congr_left fun d _ => Prod.ext (Writes.onCondition_id ..) (hmet d)
  · obtain ⟨e', bs, last, he', hstatus, hes, htell, hlast⟩ := h.completed fun d' hd' => by
      obtain ⟨d, hd, rfl⟩ := List.mem_map.mp hd'
      exact (hmet d).trans (hall d hd)
    refine ⟨e', b :: bs, last, he', hstatus, ?_, htell.cons ht hd hperm, hlast⟩
    rw [hes, List.append_assoc es [b] bs, List.singleton_append]
  · obtain ⟨d, hd', hopen⟩ := hsome
    obtain ⟨he', hsettled, bs, hes, htell⟩ :=
      h.active ⟨_, List.mem_map_of_mem hd', (hmet d).trans hopen⟩
    refine ⟨he', hsettled, b :: bs, ?_, htell.cons ht hd hperm⟩
    rw [hes, List.append_assoc, List.singleton_append]

end Met

/-! ### Where they begin and end -/

/-- The settlements of an escrow that is completed. -/
theorem Reachable.settlementsOf_of_completed (h : Reachable u) (he : e ∈ u.store.escrows)
    (hs : e.status = .completed) :
    ∃ user t, ⟨user, .seller⟩ ∈ e.parties ∧
      u.ledger.settlementsOf e.id = [⟨e.id.text, user, t⟩] := by
  have hsound : e.Sound := h.kept.sound e he
  obtain ⟨user, hb⟩ := hsound.paid hs
  obtain ⟨t, ht⟩ := Option.isSome_iff_exists.mp (hsound.settled_iff.mpr hs)
  refine ⟨user, t, Escrow.mem_parties_of_recipient? hb, ?_⟩
  rw [h.settled.told e he, Escrow.settlements, hb, ht]

/-- The log of an active escrow tells of no completion. -/
theorem Reachable.completed_not_told (h : Reachable u) (he : e ∈ u.store.escrows)
    (hs : e.status = .active) : ∀ b ∈ u.store.eventsOf e.id, b.type ≠ .completed := by
  intro b hb htype
  obtain ⟨_, _, hl⟩ := h.life he
  have hle := hl.length_filter_le EventType.completed_leaves (by decide)
  have hpos : 0 < ((u.store.eventsOf e.id).filter fun b => b.type = .completed).length :=
    List.length_pos_of_mem (List.mem_filter.mpr ⟨hb, decide_eq_true htype⟩)
  rw [hs] at hle
  have hone : (!Status.active.isTerminal).toNat = 1 := rfl
  omega

/-- An active escrow that nobody has named a condition of since. -/
theorem Converged.start (h : Reachable u) (he : e ∈ u.store.escrows) (hs : e.status = .active)
    (hcs : u.store.conditionsOf e.id ≠ []) :
    Converged e (u.store.conditionsOf e.id) (u.store.eventsOf e.id) (fun _ => false) u := by
  have hnone : newlyMet (fun _ => false) (u.store.conditionsOf e.id) = [] :=
    List.filter_eq_nil_iff.mpr fun c _ => by simp
  refine ⟨List.map_congr_left fun c _ => by rw [Bool.or_false], fun hall => ?_, fun _ => ?_⟩
  · -- With all conditions met it would be completed.
    obtain ⟨_, _, hl⟩ := h.life he
    have hc := hl.timely.completed hcs fun c hc => by simpa using hall c hc
    rw [hs] at hc
    cases hc
  · refine ⟨(Store.stored?_eq_some_iff h.kept.distinct).mpr he, ?_, [], by simp, ?_⟩
    · rw [h.settled.told e he,
        Escrow.settlements_of_ne_completed (h.kept.sound e he) (by rw [hs]; decide)]
    · rw [hnone]
      exact .nil

/-- An escrow that is completed, with the event of its completion at the end of its log. -/
theorem Converged.done (h : Reachable u) (hall : ∀ c ∈ cs, c.met = true) {e' : Escrow}
    (he' : e' ∈ u.store.escrows) (hid : e'.id = e.id) (hs : e'.status = .completed)
    (hp : e'.parties = e.parties) (hcs : u.store.conditionsOf e.id = cs) {b : Event}
    (hes : u.store.eventsOf e.id = es ++ [b]) (hb : b.type = .completed) :
    Converged e cs es k u := by
  have hnone : newlyMet k cs = [] :=
    List.filter_eq_nil_iff.mpr fun c hc => by simp [hall c hc]
  refine ⟨?_, fun _ => ?_, fun ⟨c, hc, hopen⟩ => ?_⟩
  · rw [hcs]
    exact List.map_congr_left fun c hc => by rw [hall c hc, Bool.true_or]
  · obtain ⟨user, t, hseller, hsettled⟩ := h.settlementsOf_of_completed he' hs
    have hstored := (Store.stored?_eq_some_iff h.kept.distinct).mpr he'
    rw [hid] at hsettled hstored
    refine ⟨e', [], b, hstored, hs, by rw [hes, List.append_nil], ?_, hb, user, t, hp ▸ hseller,
      hsettled⟩
    rw [hnone]
    exact .nil
  · rw [hall c hc, Bool.true_or] at hopen
    cases hopen

end Ends

/-! ## Steps -/

section Steps

variable {v : Service} {e : Escrow} {c : Condition} {by' : Caller}

/-- A call of a party to confirm an open condition goes through. -/
theorem Reachable.confirm_ok (h : Reachable v) (hv : v.Steady) (he : e ∈ v.store.escrows)
    (hs : e.status = .active) (hc : c ∈ v.store.conditionsOf e.id) (hm : c.met = false)
    (hp : ∃ r, ⟨by'.user, r⟩ ∈ e.parties) :
    ∃ a, (v.perform by' (.confirm c.id)).1 = .ok a := by
  obtain ⟨hresult, -⟩ := result_confirm hv.order h.kept he hc hm by'
  obtain ⟨hothers, hlast⟩ := h.conclude_confirmation he hs hc hm hp v.surroundings.ask
  have hverdict : ((planConfirmation c.id by' e.loaded (v.store.conditionsOf e.id)).conclude
      v.surroundings.ask).verdict = .ok () := by
    by_cases hd : ∃ d ∈ v.store.conditionsOf e.id, d.id ≠ c.id ∧ d.met = false
    · exact (hothers hd).1
    · obtain ⟨b, -, -, hb⟩ := hlast fun d hdm hne => by
        by_contra hdopen
        exact hd ⟨d, hdm, hne, by simpa using hdopen⟩
      exact hb.trans (hv.verdict _ _)
  exact ⟨_, hresult.trans (by rw [hverdict]; rfl)⟩

/-- It is a deed on the escrow, which meets the condition. -/
theorem Reachable.confirm_deed (h : Reachable v) (hv : v.Steady) (he : e ∈ v.store.escrows)
    (hs : e.status = .active) (hc : c ∈ v.store.conditionsOf e.id) (hm : c.met = false)
    (hp : ∃ r, ⟨by'.user, r⟩ ∈ e.parties) {u : Service}
    (hu : u = (v.perform by' (.confirm c.id)).2.1) :
    ∃ w paid i, Deed by' e.loaded (v.store.conditionsOf e.id) w paid ∧
      (∃ m, w.met = some m ∧ m.1 = c.id) ∧ w.view v.now e ∈ u.store.escrows ∧
      u.store.conditionsOf e.id = (v.store.conditionsOf e.id).map (w.onCondition v.now) ∧
      u.store.logOf e.id = v.store.logOf e.id ++
        enterDrafts v.now e.id i (v.store.nextSequence e.id) w.drafts := by
  obtain ⟨a, ha⟩ := h.confirm_ok hv he hs hc hm hp
  have hmet : u.store.Met c.id := hu ▸ Service.met_of_confirmed ha
  have heffect : Effect v by' u := hu ▸ Service.perform_effect h.kept.sound by' _
  have hkept : Kept u.store u.counters := h.kept.effect heffect
  -- What the store has under the identifier of the condition is met now.
  have image : ∀ d ∈ u.store.conditionsOf e.id, d.id = c.id → d.met = true := by
    intro d hd hid
    obtain ⟨d', hd', hid', hm'⟩ := hmet
    have hdd' : d = d' := List.inj_on_of_nodup_map hkept.conditionsDistinct
      (List.mem_filter.mp hd).1 hd' (hid.trans hid'.symm)
    rw [hdd', hm']
  obtain ⟨e', he', -, hturned⟩ := heffect.exists_turned h.kept he
  cases hturned with
  | untouched hconditions _ =>
    have := image c (by rw [hconditions]; exact hc) rfl
    rw [hm] at this
    cases this
  | @deed w paid i hdeed hconditions hlog =>
    refine ⟨w, paid, i, hdeed, ?_, he', hconditions, hlog⟩
    have hcm := image (w.onCondition v.now c)
      (by rw [hconditions]; exact List.mem_map_of_mem hc) (Writes.onCondition_id ..)
    rw [Writes.onCondition_met, hm, Bool.false_or, Option.any_eq_true] at hcm
    exact hcm.imp fun m hm => hm.imp_right of_decide_eq_true

/-- Either another condition is open, and nothing but the confirmation is written, or it was the last
one, and the escrow is completed. -/
theorem Reachable.confirm_step (h : Reachable v) (hv : v.Steady) (he : e ∈ v.store.escrows)
    (hs : e.status = .active) (hc : c ∈ v.store.conditionsOf e.id) (hm : c.met = false)
    (hp : ∃ r, ⟨by'.user, r⟩ ∈ e.parties) {u : Service}
    (hu : u = (v.perform by' (.confirm c.id)).2.1) :
    ∃ (w : Writes) (user : String) (b : Event), w.met = some (c.id, user) ∧
      b.type = .conditionMet ∧ b.data = c.confirmation ∧
      u.store.conditionsOf e.id = (v.store.conditionsOf e.id).map (w.onCondition v.now) ∧
      ((e ∈ u.store.escrows ∧ u.store.logOf e.id = v.store.logOf e.id ++ [b]) ∨
        ∃ (e' : Escrow) (b' : Event), e' ∈ u.store.escrows ∧ e'.id = e.id ∧
          e'.status = .completed ∧ e'.parties = e.parties ∧
          (∀ d ∈ u.store.conditionsOf e.id, d.met = true) ∧
          u.store.logOf e.id = v.store.logOf e.id ++ [b, b'] ∧ b'.type = .completed) := by
  obtain ⟨w, paid, i, hdeed, ⟨m, hmet, hmc⟩, hmem, hconditions, hlog⟩ :=
    h.confirm_deed hv he hs hc hm hp hu
  obtain ⟨d, hd, -, rfl, -, hcases⟩ := hdeed.of_met hmet
  -- There is one condition with the identifier.
  obtain rfl : d = c :=
    List.inj_on_of_nodup_map (Store.nodup_conditionsOf h.kept.conditionsDistinct e.id) hd hc hmc
  rcases hcases with ⟨-, hpatch, hdrafts⟩ | ⟨hothers, b, t, hpatch, hdrafts⟩
  · rw [hdrafts] at hlog
    rw [Writes.view_of_none hpatch] at hmem
    exact ⟨w, _, _, hmet, rfl, rfl, hconditions, .inl ⟨hmem, hlog⟩⟩
  · rw [hdrafts] at hlog
    refine ⟨w, _, _, hmet, rfl, rfl, hconditions, .inr ⟨_, _, hmem, Writes.view_id ..,
      Writes.status_view hpatch v.now, (Writes.view_people w v.now e).1, fun d' hd' => ?_,
      hlog, rfl⟩⟩
    rw [hconditions] at hd'
    obtain ⟨d', hdm, rfl⟩ := List.mem_map.mp hd'
    rw [Writes.onCondition_met, hmet]
    by_cases hid : d'.id = d.id
    · simp [hid]
    · rw [hothers d' hdm hid, Bool.true_or]

/-- Who has no role in an escrow is none of its parties. -/
theorem Escrow.outsider_of_any_eq_false {user : String}
    (h : (e.parties.any fun p => p.user = user) = false) : e.Outsider user := by
  intro r hr
  have hany : (e.parties.any fun p => p.user = user) = true :=
    List.any_eq_true.mpr ⟨_, hr, decide_eq_true rfl⟩
  rw [h] at hany
  cases hany

theorem Happening.exists_of_names {a : Happening} {k : Identifier} (h : a.names e k = true) :
    ∃ by', a = .operation by' (.confirm k) ∧ (∃ r, ⟨by'.user, r⟩ ∈ e.parties) ∧
      ∀ j, a.names e j = decide (j = k) := by
  unfold names at h
  split at h
  next by' j =>
    obtain ⟨hj, hp⟩ := Bool.and_eq_true_iff.mp h
    obtain rfl : j = k := of_decide_eq_true hj
    obtain ⟨p, hp', hpu⟩ := List.any_eq_true.mp hp
    refine ⟨by', rfl, ⟨p.role, ?_⟩, fun i => ?_⟩
    · rw [← of_decide_eq_true hpu]
      exact hp'
    · show (decide (j = i) && _) = _
      rw [hp, Bool.and_true]
      exact decide_eq_decide.mpr eq_comm
  next => cases h

/-- What else happens leaves the escrow alone: a call about other things, of somebody else, or for a
condition that is met. -/
theorem Reachable.part_after (h : Reachable v) (hv : v.Steady) (he : e ∈ v.store.escrows)
    {a : Happening} (ha : a.LeavesTo e.id)
    (hn : ∀ d ∈ v.store.conditionsOf e.id, d.met = false → a.names e d.id = false) :
    (v.after a).store.part e.id = v.store.part e.id := by
  have elsewhere : ∀ {by' : Caller} {op : Operation}, op.target? v.store ≠ some e.id →
      (v.perform by' op).2.1.store.part e.id = v.store.part e.id :=
    fun hne => (Service.spared_perform h.kept he _ fun htarget => absurd htarget hne).part
  cases a with
  | operation by' op =>
    cases op with
    | create n => exact elsewhere (by simp [Operation.target?])
    | task x t => exact elsewhere fun htarget => ha (Option.some.inj htarget)
    | confirm k =>
      -- A condition of this escrow is met already, or the caller has no part in it.
      by_cases hk : ∃ d ∈ v.store.conditionsOf e.id, d.id = k
      · obtain ⟨d, hd, rfl⟩ := hk
        obtain ⟨hmem, hde⟩ := List.mem_filter.mp hd
        cases hm : d.met with
        | true =>
          have hfind : v.store.condition? d.id = some d :=
            (find?_eq_some_iff_mem h.kept.conditionsDistinct).mpr hmem
          have hquiet := (Service.perform_confirm_done by' hfind hv.order.database hm).2
          exact congrArg (fun s : Store => s.part e.id) hquiet.store
        | false =>
          have hparty : (e.parties.any fun p => p.user = by'.user) = false := by
            simpa [Happening.names] using hn d hd hm
          obtain ⟨f, hf⟩ := Service.perform_confirm_refused
            ((Store.stored?_eq_some_iff h.kept.distinct).mpr he) h.kept.conditionsDistinct
            (Escrow.outsider_of_any_eq_false hparty) hmem (of_decide_eq_true hde)
            (fun hdone => by rw [hm] at hdone; cases hdone.2)
          exact congrArg (fun s : Store => s.part e.id) (Service.perform_store_of_error hf)
      · refine elsewhere fun htarget => hk ?_
        obtain ⟨d, hd, hde⟩ := Option.map_eq_some_iff.mp htarget
        have hmem := List.mem_of_find?_eq_some hd
        exact ⟨d, List.mem_filter.mpr ⟨hmem, decide_eq_true hde⟩, by simpa using List.find?_some hd⟩
  | _ => rfl

/-- Happenings are visits. -/
theorem Service.through_happenings (v : Service) (hs : List Happening) :
    v.through (hs.map .happening) = v.run hs := by
  unfold through run
  rw [List.foldl_map]
  rfl

/-- An escrow that is completed stays so, whatever happens. -/
theorem Reachable.done_run {u : Service} (h : Reachable u) {e' : Escrow}
    (he' : e' ∈ u.store.escrows) (hid : e'.id = e.id) (hs : e'.status = .completed)
    (hp : e'.parties = e.parties) (hall : ∀ d ∈ u.store.conditionsOf e.id, d.met = true)
    {es : List Event} {b : Event} (hlog : u.store.logOf e.id = es ++ [b])
    (hb : b.type = .completed) (k : Identifier → Bool) (hs' : List Happening) :
    Converged e (u.store.conditionsOf e.id) es k (u.run hs') := by
  obtain ⟨-, hpart, -⟩ :=
    Service.part_through h.visited he' (by rw [hs]; rfl) (hs'.map .happening)
  rw [Service.through_happenings, hid] at hpart
  have hmem := Store.mem_of_part_eq (hid ▸ hpart) he'
  refine .done (h.run hs') hall hmem hid hs hp (congrArg Store.conditions hpart) (b := b) ?_ hb
  rw [(h.run hs').eventsOf_eq_logOf]
  exact (congrArg Store.events hpart).trans hlog

end Steps

/-! ## Runs -/

/-- An active escrow that is left to its conditions converges to what the named ones make of it. -/
theorem Reachable.converged {v : Service} (h : Reachable v) (hv : v.Steady) {e : Escrow}
    (he : e ∈ v.store.escrows) (hs : e.status = .active) (hcs : v.store.conditionsOf e.id ≠ [])
    (as : List Happening) (has : ∀ a ∈ as, a.LeavesTo e.id) :
    Converged e (v.store.conditionsOf e.id) (v.store.eventsOf e.id) (named e as) (v.run as) := by
  induction as generalizing v with
  | nil => exact .start h he hs hcs
  | cons a as ih =>
    have ha : a.LeavesTo e.id := has a (List.mem_cons_self ..)
    have htail : ∀ a ∈ as, a.LeavesTo e.id := fun a hm => has a (List.mem_cons_of_mem _ hm)
    show Converged e _ _ _ ((v.after a).run as)
    by_cases hname : ∃ c ∈ v.store.conditionsOf e.id, c.met = false ∧ a.names e c.id = true
    · -- A condition is confirmed, and the rest goes on from there.
      obtain ⟨c, hc, hm, hname⟩ := hname
      obtain ⟨by', rfl, hp, hnames⟩ := Happening.exists_of_names hname
      have hu : Reachable (v.perform by' (.confirm c.id)).2.1 :=
        h.step (.operation by' (.confirm c.id))
      have hvu : (v.perform by' (.confirm c.id)).2.1.Steady := hv.after ha
      obtain ⟨w, user, b, hw, ht, hd, hconditions, hstep⟩ := h.confirm_step hv he hs hc hm hp rfl
      have hrest : Converged e ((v.store.conditionsOf e.id).map (w.onCondition v.now))
          (v.store.eventsOf e.id ++ [b]) (named e as)
          ((v.perform by' (.confirm c.id)).2.1.run as) := by
        rw [← hconditions, h.eventsOf_eq_logOf]
        rcases hstep with ⟨hmem, hlog⟩ | ⟨e', b', hmem, hid, hcompleted, hparties, hall, hlog, hb'⟩
        · rw [← hlog, ← hu.eventsOf_eq_logOf]
          exact ih hu hvu hmem (by rw [hconditions]; simpa using hcs) htail
        · rw [List.append_cons] at hlog
          exact hu.done_run hmem hid hcompleted hparties hall hlog hb' _ as
      have hnodup := Store.nodup_conditionsOf h.kept.conditionsDistinct e.id
      refine (Converged.confirmed hnodup hc hm hw ht hd hrest).congr fun d _ => ?_
      rw [named_cons, hnames]
    · have hpart := h.part_after hv he ha fun d hd hm => by
        by_contra hne
        exact hname ⟨d, hd, hm, by simpa using hne⟩
      have hu := h.step a
      have hconditions : (v.after a).store.conditionsOf e.id = v.store.conditionsOf e.id :=
        congrArg Store.conditions hpart
      have hlog : (v.after a).store.logOf e.id = v.store.logOf e.id := congrArg Store.events hpart
      have hrest := ih hu (hv.after ha) (Store.mem_of_part_eq hpart he)
        (by rw [hconditions]; exact hcs) htail
      rw [hconditions, hu.eventsOf_eq_logOf, hlog, ← h.eventsOf_eq_logOf] at hrest
      refine hrest.congr fun d hd => ?_
      cases hm : d.met with
      | true => rfl
      | false =>
        have hnone : a.names e d.id = false := by
          by_contra hne
          exact hname ⟨d, hd, hm, by simpa using hne⟩
        rw [named_cons, hnone, Bool.false_or, Bool.false_or]

/-- An active escrow with conditions, while the ledger pays and nobody does anything else to it. With
every open condition named by a party it is completed, the seller is paid once, and its log has
gained one event for every condition that was open and, as the last one, the only completion.
Otherwise it stays active and unpaid, and just the named conditions are met. So whatever else is
done in the same time in which parties name the same conditions, it comes to the same. -/
theorem confirmations_converge {v : Service} (h : Reachable v) (hv : v.Steady) {e : Escrow}
    (he : e ∈ v.store.escrows) (hs : e.status = .active) (hcs : v.store.conditionsOf e.id ≠ [])
    (as : List Happening) (has : ∀ a ∈ as, a.LeavesTo e.id) :
    Converged e (v.store.conditionsOf e.id) (v.store.eventsOf e.id) (named e as) (v.run as) ∧
      (∀ b ∈ v.store.eventsOf e.id, b.type ≠ .completed) ∧
      ∀ bs : List Happening, (∀ b ∈ bs, b.LeavesTo e.id) →
        (∀ c ∈ v.store.conditionsOf e.id, c.met = false → named e as c.id = named e bs c.id) →
        (v.run as).Alike (v.run bs) e.id := by
  have hconverged := h.converged hv he hs hcs as has
  refine ⟨hconverged, h.completed_not_told he hs, fun bs hbs hnamed => hconverged.alike ?_⟩
  refine (h.converged hv he hs hcs bs hbs).congr fun c hc => ?_
  cases hm : c.met with
  | true => rfl
  | false => rw [hnamed c hc hm]

/-- The conditions of the sale are confirmed in turn. -/
def inTurn : List Happening :=
  [.operation ⟨"seller", none⟩ (.confirm (Identifier.condition 1)),
    .operation ⟨"buyer", none⟩ (.confirm (Identifier.condition 2))]

/-- They are confirmed the other way round, with a stranger turned away, and again when it is over. -/
def crosswise : List Happening :=
  [.operation ⟨"buyer", none⟩ (.confirm (Identifier.condition 2)),
    .operation ⟨"stranger", none⟩ (.confirm (Identifier.condition 1)),
    .operation ⟨"seller", none⟩ (.confirm (Identifier.condition 2)),
    .operation ⟨"buyer", none⟩ (.confirm (Identifier.condition 1)),
    .operation ⟨"seller", none⟩ (.confirm (Identifier.condition 1))]

/-- Either way the sale is completed and paid. -/
theorem confirmations_converge_crosswise :
    ∃ e ∈ soldService.store.escrows,
      ((soldService.run crosswise).store.stored? e.id).map (·.status) = some .completed ∧
        ((soldService.run crosswise).ledger.settlementsOf e.id).length = 1 ∧
        (soldService.run crosswise).Alike (soldService.run inTurn) e.id := by
  obtain ⟨e, he, hs, hnil, hnamed⟩ : ∃ e ∈ soldService.store.escrows, e.status = .active ∧
      (soldService.store.conditionsOf e.id).isEmpty = false ∧
        ∀ c ∈ soldService.store.conditionsOf e.id,
          named e crosswise c.id = true ∧ named e inTurn c.id = true := by
    decide +kernel
  have hsteady : soldService.Steady := ⟨⟨by decide +kernel, by decide +kernel⟩, by decide +kernel⟩
  have hcs : soldService.store.conditionsOf e.id ≠ [] := List.isEmpty_eq_false_iff.mp hnil
  obtain ⟨hconverged, -, halike⟩ := confirmations_converge soldService_reachable hsteady he hs hcs
    crosswise (by simp [crosswise, Happening.LeavesTo])
  obtain ⟨e', _, _, he', hcompleted, -, -, -, _, _, -, hsettled⟩ :=
    hconverged.completed fun c hc => by rw [(hnamed c hc).1, Bool.or_true]
  refine ⟨e, he, ?_, ?_, halike inTurn (by simp [inTurn, Happening.LeavesTo]) fun c hc _ => ?_⟩
  · rw [he', Option.map_some, hcompleted]
  · rw [hsettled, List.length_singleton]
  · rw [(hnamed c hc).1, (hnamed c hc).2]

end Custody

import Custody.Proofs.Warrant

/-!
# Released when the last condition is met

The last confirmation meets its condition, counts what is still open, asks the ledger and completes
the escrow, and each of these can fail. What is left is one of two things all the same: nothing of
the confirmation, or an escrow that is completed. So there is no moment to be seen at which all
conditions are met and the escrow is not completed yet.

> `Deed.timely`: a deed keeps the conditions of an escrow in time with its status.
> `released_when_met`: after every run an escrow whose conditions are all met is completed, none is
> met while it is pending, and none is open where the log tells of a release by the conditions.
-/

namespace Custody

/-- The conditions of an escrow are in time with its status: none is met too early, and when the
last one is met the escrow is completed. -/
structure Escrow.Timely (e : Escrow) (cs : List Condition) : Prop where
  pending : e.status = .pending → ∀ c ∈ cs, c.met = false
  completed : cs ≠ [] → (∀ c ∈ cs, c.met = true) → e.status = .completed

/-- Nothing leads to a pending escrow but a pending one. -/
theorem Leads.eq_pending {s : Status} {ds : List EventDraft} (h : Leads s ds .pending) :
    s = .pending := by
  generalize ht : Status.pending = t at h
  induction h with
  | stay => rfl
  | @go s t u d ds hp ho hn h ih =>
    have htu : t = u := ih ht
    subst htu ht
    revert hp
    cases d.type <;> cases s <;> decide

section Deeds

variable {by' : Caller} {e : Escrow} {cs : List Condition} {w : Writes}
  {paid : Option (SettleRequest × String)}

/-- Writes that meet no condition leave all of them as they were. -/
theorem Writes.map_onCondition_of_none (hm : w.met = none) (now : Moment) (cs : List Condition) :
    cs.map (w.onCondition now) = cs :=
  List.map_id'' (fun c => by simp only [onCondition, hm]) cs

/-- What a deed does to the record alone keeps it in time. -/
theorem Deed.timely_view (hd : Deed by' e.loaded cs w paid) (h : e.Timely cs) (now : Moment) :
    (w.view now e).Timely cs := by
  constructor
  case pending =>
    intro hp
    have hleads := hd.leads now
    rw [hp] at hleads
    exact h.pending hleads.eq_pending
  case completed =>
    intro hne hall
    -- The escrow was completed already, so the deed has done nothing.
    have hc : e.status = .completed := h.completed hne hall
    obtain ⟨hw, -⟩ := hd.come_of_isTerminal (by rw [Escrow.loaded_status, hc]; rfl)
    rw [Writes.view_of_none hw.patch_eq]
    exact hc

/-- A deed keeps the conditions of an escrow in time with its status. -/
theorem Deed.timely (hd : Deed by' e.loaded cs w paid) (h : e.Timely cs) (now : Moment) :
    (w.view now e).Timely (cs.map (w.onCondition now)) := by
  cases hm : w.met with
  | none =>
    rw [Writes.map_onCondition_of_none hm]
    exact hd.timely_view h now
  | some m =>
    obtain ⟨c, hc, -, rfl, hp, ⟨⟨d, hd, hne, hopen⟩, hpatch, -⟩ | ⟨-, b, t, hpatch, -⟩⟩ :=
      hd.of_met hm
    · rw [Writes.view_of_none hpatch]
      have hs : e.status = .active :=
        status_of_permit hp fun t => by cases t <;> simp [permission]
      refine ⟨fun hpending => ?_, fun _ hall => ?_⟩
      · rw [hs] at hpending
        cases hpending
      · -- Another condition is open still.
        have hmet := hall _ (List.mem_map_of_mem hd)
        rw [Writes.onCondition_met, hopen, hm] at hmet
        simp [hne.symm] at hmet
    · have hcompleted : (w.view now e).status = .completed := Writes.status_view hpatch now
      refine ⟨fun hpending => ?_, fun _ _ => hcompleted⟩
      rw [hcompleted] at hpending
      cases hpending

end Deeds

/-- So they are throughout a life. -/
theorem Life.timely {by' : Caller} {n : NewEscrow} {e : Escrow} {cs : List Condition}
    {es : List Event} (h : Life by' n e cs es) : e.Timely cs := by
  induction h with
  | created hn hf he hc =>
    subst hc
    refine ⟨fun _ c hc => (mem_numberConditions hc).2.1, fun hne hall => ?_⟩
    obtain ⟨c, hc⟩ := List.exists_mem_of_ne_nil _ hne
    have hmet := hall c hc
    rw [(mem_numberConditions hc).2.1] at hmet
    cases hmet
  | deed h hd now i ih => exact hd.timely ih now

/-- After every run an escrow that has conditions, all of them met, is completed; one that is pending
has none that is met; and one that was released by its conditions, as its log tells, has none that
is open. -/
theorem released_when_met {v : Service} (h : Reachable v) {e : Escrow} (he : e ∈ v.store.escrows) :
    (v.store.conditionsOf e.id ≠ [] → (∀ c ∈ v.store.conditionsOf e.id, c.met = true) →
      e.status = .completed) ∧
    (e.status = .pending → ∀ c ∈ v.store.conditionsOf e.id, c.met = false) ∧
    ∀ b ∈ v.store.eventsOf e.id, b.type = .completed →
      ∀ x t, b.data = .completed (.request false) x t →
        ∀ c ∈ v.store.conditionsOf e.id, c.met = true := by
  obtain ⟨by', n, hl⟩ := h.life he
  refine ⟨hl.timely.completed, hl.timely.pending, fun b hb htype x t hdata => ?_⟩
  have hw : Warrant e (v.store.conditionsOf e.id) v.now b :=
    hl.warrant hb fun hexpired => by rw [htype] at hexpired; cases hexpired
  cases hw with
  | automatic _ _ _ hm => exact hm
  | decided _ _ hd | manual _ _ hd =>
    rw [hdata] at hd
    cases hd
  | creator ht =>
    rcases ht with ht | ht | ht <;> rw [htype] at ht <;> cases ht
  | confirmed ht | disputed ht | cancelledPending ht | cancelledActive ht | cancelledDisputed ht
  | expired ht =>
    rw [htype] at ht
    cases ht

/-- Both conditions of the sale are met in the end, although the ledger did not answer at first, so it
is completed. -/
theorem released_when_met_paidService :
    ∃ e ∈ paidService.store.escrows, (paidService.store.conditionsOf e.id).length = 2 ∧
      (∀ c ∈ paidService.store.conditionsOf e.id, c.met = true) ∧ e.status = .completed := by
  obtain ⟨e, he, htwo, hmet⟩ : ∃ e ∈ paidService.store.escrows,
      (paidService.store.conditionsOf e.id).length = 2 ∧
        ∀ c ∈ paidService.store.conditionsOf e.id, c.met = true := by
    decide +kernel
  have hreachable : Reachable paidService := soldService_reachable.run _
  refine ⟨e, he, htwo, hmet, (released_when_met hreachable he).1 ?_ hmet⟩
  exact List.ne_nil_of_length_pos (by rw [htwo]; decide)

end Custody

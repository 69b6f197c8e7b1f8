import Custody.Proofs.Run

/-!
# Ways out

Whether those who hold a role on an open escrow can bring it to an end. The buyer can leave a
pending or an active escrow, and there always is a buyer. A disputed one is left to an arbitrator,
and the parties are fixed when the escrow is created: where none was named then, a dispute is the
end of the road.

> `closable_iff`: an open escrow can be closed unless it is disputed without an arbitrator.

One direction is a single cancellation (`cancel_closes`); the other is an invariant, `Stuck`, that
no operation of anybody breaks.
-/

namespace Custody

/-- What the parties of an escrow can bring about: operations of their own, and waiting. -/
inductive Happening.OfParties (e : Escrow) : Happening → Prop
  | operation {by' : Caller} {op : Operation} {r : Role} (h : ⟨by'.user, r⟩ ∈ e.parties) :
      OfParties e (.operation by' op)
  | clock (instant : Int) : OfParties e (.clock instant)

/-- The parties of an escrow can bring it to a final status. -/
def Closable (v : Service) (e : Escrow) : Prop :=
  ∃ hs : List Happening, (∀ a ∈ hs, a.OfParties e) ∧
    ∃ d ∈ (v.run hs).store.escrows, d.id = e.id ∧ d.status.isTerminal = true

/-! ## Cancellation -/

section Cancellation

variable {v : Service} {e : Escrow} {u : String} {r : Role} {rs : List Role}

/-- Whoever has a role that the policy asks for can plan to leave. -/
theorem planCancellation_eq_ok (hp : permission .cancel e.status = .roles rs) (hr : r ∈ rs)
    (hu : ⟨u, r⟩ ∈ e.parties) :
    ∃ w, planCancellation none ⟨u, none⟩ e = .ok w ∧ w.patch = some .cancellation := by
  have hpermit : permit e u .cancel = .ok () :=
    permit_eq_ok_iff.mpr (.inr ⟨rs, hp, r, hr, hu⟩)
  have hmove : move e .cancelled = .ok .cancelled := by
    refine move_eq_ok_iff.mpr ⟨?_, rfl⟩
    revert hp
    cases e.status <;> simp [permission, Status.successors]
  have hplan : ∃ w, planCancellation none ⟨u, none⟩ e = .ok w := by
    simp only [planCancellation, cancelWrites, hpermit, hmove]
    exact ⟨_, rfl⟩
  obtain ⟨w, hw⟩ := hplan
  refine ⟨w, hw, ?_⟩
  obtain ⟨_, -, hw⟩ := Except.bind_eq_ok_iff.mp hw
  exact (cancelWrites_come hw).patch_eq

/-- Such a cancellation closes the escrow. -/
theorem cancel_closes (hk : Kept v.store v.counters) (hd : v.database = none)
    (hl : ∀ l, v.lease = some l → l.acquired = true) (he : e ∈ v.store.escrows)
    (hp : permission .cancel e.status = .roles rs) (hr : r ∈ rs) (hu : ⟨u, r⟩ ∈ e.parties) :
    ∃ d ∈ (v.perform ⟨u, none⟩ (.task e.id (.cancel none))).2.1.store.escrows,
      d.id = e.id ∧ d.status = .cancelled := by
  have hst : v.store.stored? e.id = some e := (Store.stored?_eq_some_iff hk.distinct).mpr he
  obtain ⟨w, hw, hpatch⟩ := planCancellation_eq_ok (e := e.loaded) hp hr hu
  have hlease : v.surroundings.lease.any (fun l => !l.acquired) = false := by
    show v.lease.any (fun l => !l.acquired) = false
    cases hlv : v.lease with
    | none => rfl
    | some l => simp [hl l hlv]
  have hread : v.store.escrow? e.id = some e.loaded := Store.escrow?_of_stored? hst
  have hdeed : Deed ⟨u, none⟩ e.loaded (v.store.conditionsOf e.id) w none :=
    deed_of_planCancellation hw
  have happly := hdeed.apply_eq_ok (hk.sound e he) hst v.surroundings.now (v.counters.events + 1)
  have hstore : (v.perform ⟨u, none⟩ (.task e.id (.cancel none))).2.1.store.escrows =
      v.store.escrows.map (w.onRecord v.now e.id) := by
    have hdb : v.surroundings.database = none := hd
    simp [Service.perform, Service.performSeeing, Operation.run, Outcome.mapResult, underLock,
      hlease, hdb, carryOut, hread, Task.plan, hw, Plan.ofWrites, Plan.conclude, happly]
    rfl
  rw [hstore]
  refine ⟨w.onRecord v.now e.id e, List.mem_map_of_mem he, Writes.onRecord_id .., ?_⟩
  simp [Writes.onRecord, Writes.view, hpatch, Patch.applyAt, Patch.apply]

end Cancellation

/-! ## Disputes without an arbitrator -/

/-- A disputed escrow without an arbitrator. -/
def Stuck (id : Identifier) (s : Store) : Prop :=
  ∃ e ∈ s.escrows, e.id = id ∧ e.status = .disputed ∧ ∀ u, ⟨u, .arbitrator⟩ ∉ e.parties

/-- A permission in a dispute is an arbitrator's. -/
theorem permit_disputed {e : Escrow} {actor : String} {a : Action} (hs : e.status = .disputed)
    (h : permit e actor a = .ok ()) : ⟨actor, .arbitrator⟩ ∈ e.parties := by
  rcases permit_eq_ok_iff.mp h with hp | ⟨rs, hp, r, hr, hmem⟩
  · rw [hs] at hp
    cases a <;> cases hp
  · rw [hs] at hp
    cases a <;> cases hp <;> simp_all

/-- No deed changes such a record. -/
theorem Deed.patch_of_disputed {by' : Caller} {e : Escrow} {cs : List Condition} {w : Writes}
    {paid : Option (SettleRequest × String)} (h : Deed by' e cs w paid) (hs : e.status = .disputed)
    (ha : ∀ u, ⟨u, .arbitrator⟩ ∉ e.parties) : w.patch = none := by
  have forbidden : ∀ {a : Action}, permit e by'.user a ≠ .ok () :=
    fun hp => ha _ (permit_disputed hs hp)
  cases h with
  | sameTerms _ hw | releasedBefore _ hw | metBefore _ _ hw => exact hw.patch_eq
  | terms hp | activation hp | dispute hp | cancellation hp | expiry hp | refund hp | decided hp
  | confirmation _ _ hp | lastConfirmation _ _ hp => exact absurd hp forbidden
  | release hact =>
    rw [hs] at hact
    cases hact

theorem Stuck.effect {v u : Service} {by' : Caller} {id : Identifier}
    (hk : Kept v.store v.counters) (h : Stuck id v.store) (hu : Effect v by' u) :
    Stuck id u.store := by
  obtain ⟨e, he, hid, hs, ha⟩ := h
  cases hu with
  | nothing => exact ⟨e, he, hid, hs, ha⟩
  | creation => exact ⟨e, List.mem_append_left _ he, hid, hs, ha⟩
  | @deed d w paid hd hdeed =>
    have hmem : w.onRecord v.now d.id e ∈ ((v.store.changed v.now d.id w).enterAll v.now d.id
        (v.counters.events + 1) w.drafts).escrows := by
      rw [Store.escrows_enterAll]
      exact List.mem_map_of_mem he
    -- A deed about this escrow leaves its record alone, and one about another does so anyway.
    have hsame : w.onRecord v.now d.id e = e := by
      unfold Writes.onRecord
      split
      next hde =>
        have hst := (Store.stored?_eq_some_iff hk.distinct).mpr he
        rw [hde, hd] at hst
        cases hst
        rw [Writes.view, hdeed.patch_of_disputed hs ha]
      next => rfl
    rw [hsame] at hmem
    exact ⟨e, hmem, hid, hs, ha⟩

/-- Whatever happens, the escrow stays where it is. -/
theorem Stuck.run {v : Service} {id : Identifier} (hv : Reachable v) (h : Stuck id v.store)
    (hs : List Happening) : Stuck id (v.run hs).store := by
  induction hs generalizing v with
  | nil => exact h
  | cons a hs ih =>
    refine ih (hv.step a) ?_
    cases a with
    | operation by' op => exact h.effect hv.kept (Service.perform_effect hv.kept.sound by' op)
    | _ => exact h

/-! ## Ways out -/

/-- An open escrow of any run, with the store and the lock in order, can be closed by its parties
unless it is disputed and none of them is an arbitrator. -/
theorem closable_iff {v : Service} (h : Reachable v) (hd : v.database = none)
    (hl : ∀ l, v.lease = some l → l.acquired = true) {e : Escrow} (he : e ∈ v.store.escrows)
    (ho : e.status.isTerminal = false) :
    Closable v e ↔ (e.status = .disputed → ∃ u, ⟨u, .arbitrator⟩ ∈ e.parties) := by
  constructor
  · -- Without an arbitrator the escrow is still disputed after whatever has happened.
    rintro ⟨hs, -, d, hdm, hid, hterm⟩ hdis
    by_contra hno
    have hstuck : Stuck e.id v.store := ⟨e, he, rfl, hdis, fun u hu => hno ⟨u, hu⟩⟩
    obtain ⟨d', hdm', hid', hdis', -⟩ := hstuck.run h hs
    have hdd : d = d' :=
      List.inj_on_of_nodup_map (h.run hs).kept.distinct hdm hdm' (hid.trans hid'.symm)
    rw [hdd, hdis'] at hterm
    cases hterm
  · intro harb
    have leave : ∀ {u : String} {r : Role} {rs : List Role},
        permission .cancel e.status = .roles rs → r ∈ rs → ⟨u, r⟩ ∈ e.parties → Closable v e := by
      intro u r rs hp hr hu
      refine ⟨[.operation ⟨u, none⟩ (.task e.id (.cancel none))], ?_, ?_⟩
      · intro a ha
        rw [List.mem_singleton.mp ha]
        exact .operation hu
      · obtain ⟨d, hdm, hid, hdc⟩ := cancel_closes h.kept hd hl he hp hr hu
        exact ⟨d, hdm, hid, by rw [hdc]; rfl⟩
    have hbuyer := (h.kept.sound e he).buyer
    cases hst : e.status with
    | pending => exact leave (by rw [hst]; rfl) (by simp) hbuyer
    | active => exact leave (by rw [hst]; rfl) (by simp) hbuyer
    | disputed =>
      obtain ⟨u, hu⟩ := harb hst
      exact leave (by rw [hst]; rfl) (by simp) hu
    | completed =>
      rw [hst] at ho
      cases ho
    | cancelled =>
      rw [hst] at ho
      cases ho

/-- The sale in a dispute. -/
def disputedService : Service :=
  soldService.run
    [.operation ⟨"seller", none⟩ (.task (Identifier.escrow 1) (.dispute (some "late")))]

/-- It was possible to close the sale until the dispute, and is no longer. -/
theorem closable_iff_disputedService :
    (∀ e ∈ soldService.store.escrows, Closable soldService e) ∧
      disputedService.store.escrows.map (·.status) = [.disputed] ∧
      ∀ e ∈ disputedService.store.escrows, ¬Closable disputedService e := by
  have hactive : ∀ e ∈ soldService.store.escrows, e.status = .active := by decide +kernel
  have hdisputed : ∀ e ∈ disputedService.store.escrows, e.status = .disputed ∧
      e.parties = [⟨"buyer", .buyer⟩, ⟨"seller", .seller⟩] := by decide +kernel
  have hlease : soldService.lease = none ∧ disputedService.lease = none := by decide +kernel
  refine ⟨fun e he => ?_, by decide +kernel, fun e he hclosable => ?_⟩
  · have ha := hactive e he
    refine (closable_iff soldService_reachable (by decide +kernel) (by simp [hlease.1]) he
      (by rw [ha]; rfl)).mpr ?_
    intro hd
    rw [ha] at hd
    cases hd
  · have hreachable : Reachable disputedService := soldService_reachable.run _
    obtain ⟨hd, hp⟩ := hdisputed e he
    obtain ⟨u, hu⟩ := (closable_iff hreachable (by decide +kernel)
      (by simp [hlease.2]) he (by rw [hd]; rfl)).mp hclosable hd
    rw [hp] at hu
    simp at hu

end Custody

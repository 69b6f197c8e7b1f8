import Custody.Proofs.Deed

/-!
# Records that the store accepts

A record that the store has accepted stays acceptable whatever is done to it. This is why the writes
of an operation never fail at the end, when the ledger may have paid already.

> `NewEscrow.record_sound`: a new record is sound.
> `Deed.view_sound`: what a deed makes of a sound record is sound.
> `Deed.apply_eq_ok`: writes of a deed on sound records are applied.

Writes are known by what they make of each record and of each condition: `Store.apply_eq`.
-/

namespace Custody

/-! ## Sound records -/

/-- What holds of a record: it is released, completed and settled together, and then to a seller;
its creator is the buyer, and there is no second seller; its amount is one for the store. -/
structure Escrow.Sound (e : Escrow) : Prop where
  released_iff : e.released = true ↔ e.status = .completed
  settled_iff : e.releaseTransaction.isSome = true ↔ e.status = .completed
  paid : e.status = .completed → ∃ b, e.recipient? = some b
  buyer : ⟨e.creator, .buyer⟩ ∈ e.parties
  seller : (e.parties.filter fun p => p.role = .seller).length ≤ 1
  amount : amountPresent (some e.amount) = true ∧ amountPositive (some e.amount) = true

namespace Escrow

theorem word_status_beq (s t : Status) : (word s == word t) = decide (s = t) := by
  cases s <;> cases t <;> decide

theorem isSome_ofWord?_word (s : Status) : (ofWord? (word s) : Option Status).isSome = true := by
  cases s <;> decide

/-- A row with the columns that every record has is accepted when it is released, completed and
settled together. -/
theorem row_fault?_eq_none {e : Escrow} (h : e.Sound) : e.row.fault? = none := by
  rw [EscrowRow.fault?_eq_none_iff]
  refine ⟨rfl, h.amount.1, rfl, isSome_ofWord?_word _, h.amount.2, ?_, ?_⟩
  · show e.released = (word e.status == word Status.completed)
    rw [word_status_beq, Bool.eq_iff_iff, decide_eq_true_iff]
    exact h.released_iff
  · show e.released = e.releaseTransaction.isSome
    rw [Bool.eq_iff_iff]
    exact h.released_iff.trans h.settled_iff.symm

theorem sound_of_row {e : Escrow} (hf : e.row.fault? = none)
    (hp : e.status = .completed → ∃ b, e.recipient? = some b) (hb : ⟨e.creator, .buyer⟩ ∈ e.parties)
    (hs : (e.parties.filter fun p => p.role = .seller).length ≤ 1) : e.Sound := by
  obtain ⟨-, ha, -, -, hpos, hr, ht⟩ := (EscrowRow.fault?_eq_none_iff _).mp hf
  have hr : e.released = (word e.status == word Status.completed) := hr
  have ht : e.released = e.releaseTransaction.isSome := ht
  have hrel : e.released = true ↔ e.status = .completed := by
    rw [hr, word_status_beq, decide_eq_true_iff]
  exact ⟨hrel, by rw [← ht]; exact hrel, hp, hb, hs, ha, hpos⟩

end Escrow

/-! ## New records -/

/-- The parties of a new escrow are the creator as its buyer and what the list has beside buyers. The
list had nothing that no other entry can make good, no pair twice and at most one seller. -/
theorem formParties_inv {creator : String} {entries : List PartyInput} {ps : List Party}
    (h : formParties creator entries = .ok ps) :
    (∀ p ∈ entries, roleFault? creator p = none) ∧
      firstRepeated (entries.filter fun p => p.role ≠ .buyer) = none ∧
      ((entries.filter fun p => p.role ≠ .buyer).filter fun p => p.role = .seller).length ≤ 1 ∧
      ps = ⟨creator, .buyer⟩ ::
        (entries.filter fun p => p.role ≠ .buyer).map fun p => ⟨p.user, p.role⟩ := by
  unfold formParties at h
  split at h
  next => cases h
  next hgood =>
    simp only at h
    split at h
    next => cases h
    next honce =>
      split at h
      next => cases h
      next hone =>
        cases h
        exact ⟨List.findSome?_eq_none_iff.mp hgood, honce, Nat.le_of_not_lt hone, rfl⟩

/-- The parties of a new escrow: the creator buys, and at most one sells. -/
theorem formParties_eq_ok {creator : String} {entries : List PartyInput} {ps : List Party}
    (h : formParties creator entries = .ok ps) :
    ⟨creator, .buyer⟩ ∈ ps ∧ (ps.filter fun p => p.role = .seller).length ≤ 1 := by
  obtain ⟨-, -, hone, rfl⟩ := formParties_inv h
  refine ⟨List.mem_cons_self .., ?_⟩
  rw [List.filter_cons_of_neg (by simp), List.filter_map, List.length_map]
  exact hone

/-- The parties of a definition that is accepted. -/
theorem NewEscrow.define_formed {n : NewEscrow} {creator : String} {ps : List Party}
    {t : EscrowType} (h : n.define creator = .ok (ps, t)) : formParties creator n.parties = .ok ps := by
  unfold define at h
  simp only at h
  split at h
  next => cases h
  next =>
    split at h
    next qs hform =>
      simp only [pure_bind] at h
      split at h
      next => cases h
      next =>
        have hqs : qs = ps := by
          split at h
          next => cases h; rfl
          next => cases h
        subst hqs
        exact hform
    next => cases h
  next => cases h

/-- The definition of an escrow that is accepted. -/
theorem NewEscrow.define_eq_ok {n : NewEscrow} {creator : String} {ps : List Party} {t : EscrowType}
    (h : n.define creator = .ok (ps, t)) :
    ⟨creator, .buyer⟩ ∈ ps ∧ (ps.filter fun p => p.role = .seller).length ≤ 1 :=
  formParties_eq_ok (define_formed h)

/-- A new record is sound. -/
theorem NewEscrow.record_sound {n : NewEscrow} {creator asset : String} {ps : List Party}
    {t : EscrowType} (h : n.define creator = .ok (ps, t))
    (hf : (n.row creator asset t).fault? = none) (id : Identifier) (now : Moment) :
    (n.record id creator asset t ps now).Sound := by
  obtain ⟨hb, hs⟩ := define_eq_ok h
  refine Escrow.sound_of_row ?_ (fun hc => by cases hc) hb hs
  rw [EscrowRow.fault?_eq_none_iff] at hf ⊢
  exact ⟨rfl, hf.2⟩

/-! ## What writes make of a store -/

namespace Writes

/-- What writes about an escrow make of a record. -/
def onRecord (w : Writes) (now : Moment) (escrow : Identifier) (e : Escrow) : Escrow :=
  if e.id = escrow then w.view now e else e

/-- What writes make of a condition. -/
def onCondition (w : Writes) (now : Moment) (c : Condition) : Condition :=
  match w.met with
  | some (k, user) =>
    if c.id = k then { c with met := true, metAt := some now, metBy := some user } else c
  | none => c

@[simp]
theorem onCondition_id (w : Writes) (now : Moment) (c : Condition) :
    (w.onCondition now c).id = c.id := by
  unfold onCondition
  split
  next => split <;> rfl
  next => rfl

@[simp]
theorem onCondition_escrow (w : Writes) (now : Moment) (c : Condition) :
    (w.onCondition now c).escrow = c.escrow := by
  unfold onCondition
  split
  next => split <;> rfl
  next => rfl

/-- A change of terms leaves everything else of a record as it was. -/
theorem foldl_apply (changes : List Change) (e : Escrow) :
    ∃ t d m,
      changes.foldl Change.apply e = { e with title := t, description := d, deadline := m } := by
  induction changes generalizing e with
  | nil => exact ⟨e.title, e.description, e.deadline, rfl⟩
  | cons c rest ih =>
    obtain ⟨t, d, m, h⟩ := ih (c.apply e)
    refine ⟨t, d, m, ?_⟩
    rw [List.foldl_cons, h]
    cases c <;> rfl

@[simp]
theorem view_id (w : Writes) (now : Moment) (e : Escrow) : (w.view now e).id = e.id := by
  unfold view
  split
  next p hp =>
    have key : ∀ q : Patch, (q.applyAt now e).id = e.id := by
      intro q
      cases q with
      | terms cs =>
        obtain ⟨t, d, m, h⟩ := foldl_apply cs e
        simp [Patch.applyAt, Patch.apply, h]
      | activation t => rfl
      | dispute => rfl
      | completion t => rfl
      | cancellation => rfl
    exact key p
  next => rfl

@[simp]
theorem onRecord_id (w : Writes) (now : Moment) (escrow : Identifier) (e : Escrow) :
    (w.onRecord now escrow e).id = e.id := by
  unfold onRecord
  split <;> simp

end Writes

namespace Store

/-- The store with what writes make of its records and conditions. -/
def changed (s : Store) (now : Moment) (escrow : Identifier) (w : Writes) : Store :=
  ⟨s.escrows.map (w.onRecord now escrow), s.conditions.map (w.onCondition now), s.events⟩

@[simp]
theorem escrows_enterAll (s : Store) (now : Moment) (escrow : Identifier) (n : Nat)
    (ds : List EventDraft) : (s.enterAll now escrow n ds).escrows = s.escrows := by
  induction ds generalizing s n with
  | nil => rfl
  | cons d ds ih => exact ih _ _

@[simp]
theorem conditions_enterAll (s : Store) (now : Moment) (escrow : Identifier) (n : Nat)
    (ds : List EventDraft) : (s.enterAll now escrow n ds).conditions = s.conditions := by
  induction ds generalizing s n with
  | nil => rfl
  | cons d ds ih => exact ih _ _

/-- A record is read as it is loaded. -/
theorem escrow?_of_stored? {s : Store} {x : Identifier} {e : Escrow} (h : s.stored? x = some e) :
    s.escrow? x = some e.loaded := by
  rw [escrow?, h, Option.map_some]

theorem escrow?_of_not_stored? {s : Store} {x : Identifier} (h : s.stored? x = none) :
    s.escrow? x = none := by
  rw [escrow?, h, Option.map_none]

/-- The record that is written to, as it stands afterwards. -/
theorem stored?_changed {s : Store} {escrow : Identifier} {e : Escrow}
    (he : s.stored? escrow = some e) (now : Moment) (n : Nat) (w : Writes) (ds : List EventDraft) :
    ((s.changed now escrow w).enterAll now escrow n ds).stored? escrow = some (w.view now e) := by
  have hid : e.id = escrow := by simpa using List.find?_some he
  have hsame : ((fun d : Escrow => decide (d.id = escrow)) ∘ w.onRecord now escrow) =
      fun d => decide (d.id = escrow) := by
    funext d
    simp only [Function.comp, Writes.onRecord_id]
  rw [stored?, escrows_enterAll, changed, List.find?_map, hsame, ← stored?, he, Option.map_some,
    Writes.onRecord, if_pos hid]

/-- The other records stay as they are. -/
theorem stored?_changed_of_ne (s : Store) {escrow x : Identifier} (h : x ≠ escrow) (now : Moment)
    (n : Nat) (w : Writes) (ds : List EventDraft) :
    ((s.changed now escrow w).enterAll now escrow n ds).stored? x = s.stored? x := by
  rw [stored?, escrows_enterAll, stored?, changed]
  induction s.escrows with
  | nil => rfl
  | cons d ds ih =>
    rw [List.map_cons, List.find?_cons, List.find?_cons, Writes.onRecord_id, ih]
    by_cases hd : d.id = x
    · rw [Writes.onRecord, if_neg (by rw [hd]; exact h)]
    · simp only [hd, decide_false]

/-- The conditions are written first, whatever becomes of the record. -/
theorem apply_eq_patch (s : Store) (now : Moment) (escrow : Identifier) (n : Nat) (w : Writes) :
    s.apply now escrow n w =
      (match w.patch with
        | some p => ({ s with conditions := s.conditions.map (w.onCondition now) }).patch now escrow p
        | none => .ok { s with conditions := s.conditions.map (w.onCondition now) }).map
        fun t => Store.enterAll t now escrow n w.drafts := by
  unfold apply
  cases hm : w.met with
  | none =>
    have hid : s.conditions.map (w.onCondition now) = s.conditions :=
      List.map_id'' (fun c => by simp only [Writes.onCondition, hm]) _
    rewrite [hid]
    rfl
  | some m =>
    have hmeet : { s with conditions := s.conditions.map (w.onCondition now) } =
        s.meet m.1 now m.2 := by
      have : w.onCondition now = fun c =>
          if c.id = m.1 then { c with met := true, metAt := some now, metBy := some m.2 } else c := by
        funext c
        simp only [Writes.onCondition, hm]
      rw [this, meet]
    rewrite [hmeet]
    rfl

/-- Writes are applied as a whole, unless the store has something against the changed record. -/
theorem apply_eq (s : Store) (now : Moment) (escrow : Identifier) (n : Nat) (w : Writes) :
    s.apply now escrow n w =
      match (s.stored? escrow).bind fun e => w.patch.bind fun p => (p.applyAt now e).row.fault? with
      | some c => .error c
      | none => .ok ((s.changed now escrow w).enterAll now escrow n w.drafts) := by
  rw [apply_eq_patch]
  cases hp : w.patch with
  | none =>
    have hid : s.escrows.map (w.onRecord now escrow) = s.escrows :=
      List.map_id'' (fun e => by simp only [Writes.onRecord, Writes.view, hp, ite_self]) _
    simp [Except.map, changed, hid]
  | some p =>
    have hrec : w.onRecord now escrow = fun e => if e.id = escrow then p.applyAt now e else e := by
      funext e
      simp only [Writes.onRecord, Writes.view, hp]
    simp only [patch, Option.bind_some, changed, hrec]
    have hst : ({ s with conditions := s.conditions.map (w.onCondition now) } : Store).stored? escrow =
      s.stored? escrow := rfl
    rw [hst]
    cases (s.stored? escrow).bind fun e => (p.applyAt now e).row.fault? <;> rfl

end Store

/-! ## Deeds on sound records -/

variable {by' : Caller} {e : Escrow} {cs : List Condition} {w : Writes}
  {paid : Option (SettleRequest × String)}

/-- What a change of a record needs: nobody leaves a completed escrow, and completion needs a
seller. -/
def Patch.Allowed (e : Escrow) : Patch → Prop
  | .terms _ => True
  | .activation _ | .dispute | .cancellation => e.status ≠ .completed
  | .completion _ => ∃ b, e.recipient? = some b

/-- A change that is allowed keeps a record sound. -/
theorem Patch.applyAt_sound {p : Patch} (now : Moment) (h : e.Sound) (hp : p.Allowed e) :
    (p.applyAt now e).Sound := by
  -- An escrow that is not completed is neither released nor settled, and stays so.
  have unpaid : e.status ≠ .completed →
      e.released = false ∧ e.releaseTransaction.isSome = false := by
    intro hne
    refine ⟨?_, ?_⟩
    · simpa using mt h.released_iff.mp hne
    · simpa using mt h.settled_iff.mp hne
  cases p with
  | terms changes =>
    obtain ⟨t, d, m, he⟩ := Writes.foldl_apply changes e
    simp only [applyAt, apply, he]
    exact ⟨h.released_iff, h.settled_iff, h.paid, h.buyer, h.seller, h.amount⟩
  | activation t =>
    obtain ⟨hr, ht⟩ := unpaid hp
    exact ⟨by simp [applyAt, apply, hr], by simp [applyAt, apply, ht], (fun hc => by cases hc),
      h.buyer, h.seller, h.amount⟩
  | dispute =>
    obtain ⟨hr, ht⟩ := unpaid hp
    exact ⟨by simp [applyAt, apply, hr], by simp [applyAt, apply, ht], (fun hc => by cases hc),
      h.buyer, h.seller, h.amount⟩
  | completion t =>
    exact ⟨by simp [applyAt, apply], by simp [applyAt, apply], fun _ => hp, h.buyer, h.seller,
      h.amount⟩
  | cancellation =>
    obtain ⟨hr, ht⟩ := unpaid hp
    exact ⟨by simp [applyAt, apply, hr], by simp [applyAt, apply, ht], (fun hc => by cases hc),
      h.buyer, h.seller, h.amount⟩

/-- Nobody may do anything to a completed escrow. -/
theorem permit_ne_completed {a : Action} {actor : String} (h : permit e actor a = .ok ()) :
    e.status ≠ .completed := by
  intro hc
  rcases permit_eq_ok_iff.mp h with hp | ⟨rs, hp, -⟩ <;> rw [hc] at hp <;> cases a <;> cases hp

/-- A deed changes the record only as it is allowed. -/
theorem Deed.allowed (h : Deed by' e cs w paid) : ∀ p, w.patch = some p → p.Allowed e := by
  intro p hp
  cases h with
  | sameTerms _ hw | releasedBefore _ hw | metBefore _ _ hw | confirmation _ _ _ _ hw =>
    rw [hw.patch_eq] at hp
    cases hp
  | terms _ _ hw =>
    rw [hw.patch_eq] at hp
    cases hp
    trivial
  | activation hperm hw | dispute hperm hw | cancellation hperm hw | expiry hperm _ _ _ hw
  | refund hperm hw =>
    rw [hw.patch_eq] at hp
    cases hp
    exact permit_ne_completed hperm
  | decided _ hb hw | release _ _ _ hb hw | lastConfirmation _ _ _ _ _ _ hb hw =>
    rw [hw.patch_eq] at hp
    cases hp
    exact ⟨_, hb⟩

/-- A deed that meets a condition is a confirmation of an open one. While another condition is open
it does nothing else, and the last one completes the escrow. -/
theorem Deed.of_met (h : Deed by' e cs w paid) {m : Identifier × String} (hm : w.met = some m) :
    ∃ c ∈ cs, c.met = false ∧ m = (c.id, by'.user) ∧
      permit e by'.user .confirmCondition = .ok () ∧
      ((∃ d ∈ cs, d.id ≠ c.id ∧ d.met = false) ∧ w.patch = none ∧
          w.drafts = [confirmationDraft by' e c] ∨
        (∀ d ∈ cs, d.id ≠ c.id → d.met = true) ∧ ∃ b t, w.patch = some (.completion t) ∧
          w.drafts = [confirmationDraft by' e c,
            paymentDraft ⟨e.creator, by'.address⟩ e (.request false) b t]) := by
  cases h with
  | sameTerms _ hw | releasedBefore _ hw | metBefore _ _ hw | terms _ _ hw | activation _ hw
  | dispute _ hw | cancellation _ hw | expiry _ _ _ _ hw | refund _ hw | decided _ _ hw
  | release _ _ _ _ hw =>
    rw [hw.met_eq] at hm
    cases hm
  | confirmation hc ho hp hothers hw =>
    rw [hw.met_eq] at hm
    cases hm
    exact ⟨_, hc, ho, rfl, hp, .inl ⟨hothers, hw.patch_eq, hw.drafts_eq⟩⟩
  | lastConfirmation hc ho hp _ _ hothers _ hw =>
    rw [hw.met_eq] at hm
    cases hm
    exact ⟨_, hc, ho, rfl, hp, .inr ⟨hothers, _, _, hw.patch_eq, hw.drafts_eq⟩⟩

/-- A deed meets only a condition that is open. -/
theorem Deed.met_open (h : Deed by' e cs w paid) {m : Identifier × String} (hm : w.met = some m) :
    ∃ c ∈ cs, c.id = m.1 ∧ c.met = false := by
  obtain ⟨c, hc, ho, rfl, -⟩ := h.of_met hm
  exact ⟨c, hc, rfl, ho⟩

theorem Patch.allowed_loaded {p : Patch} : p.Allowed e.loaded ↔ p.Allowed e := by
  cases p <;> exact Iff.rfl

/-- What a deed makes of a sound record is sound. -/
theorem Deed.view_sound (he : e.Sound) (h : Deed by' e.loaded cs w paid) (now : Moment) :
    (w.view now e).Sound := by
  unfold Writes.view
  split
  next p hp => exact Patch.applyAt_sound now he (Patch.allowed_loaded.mp (h.allowed p hp))
  next => exact he

/-- Writes of a deed on a sound record are applied. -/
theorem Deed.apply_eq_ok {s : Store} {escrow : Identifier} (hsound : e.Sound)
    (he : s.stored? escrow = some e) (h : Deed by' e.loaded cs w paid) (now : Moment) (n : Nat) :
    s.apply now escrow n w = .ok ((s.changed now escrow w).enterAll now escrow n w.drafts) := by
  have hnone : (w.patch.bind fun p => (p.applyAt now e).row.fault?) = none := by
    cases hp : w.patch with
    | none => rfl
    | some p =>
      have hp := Patch.allowed_loaded.mp (h.allowed p hp)
      exact Escrow.row_fault?_eq_none (Patch.applyAt_sound now hsound hp)
  rw [Store.apply_eq, he, Option.bind_some, hnone]

end Custody

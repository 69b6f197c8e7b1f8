import Custody.Proofs.Run

/-!
# Records without their stamps

Two runs of the same operations differ in what the clock showed, and in the numbers that events were
given. Apart from these stamps an escrow with its conditions and its audit log is `Store.plain`, and
what an operation does to it depends on nothing else.

> `plan_undated`, `planConfirmation_undated`: no plan looks at a stamp.
> `part_written`: writes about one escrow leave the others alone.
> `plain_written`: the same writes about records that differ in stamps give such records again.
-/

namespace Custody

/-- A record without the time of its last change. -/
def Escrow.undated (e : Escrow) : Escrow := { e with updatedAt := Moment.utc 0 }

/-- A condition without the time at which it was met. -/
def Condition.undated (c : Condition) : Condition :=
  { c with metAt := c.metAt.map fun _ => Moment.utc 0 }

/-- An event without its number and its time. Its place in the log of its escrow stays. -/
def Event.undated (v : Event) : Event :=
  { v with id := Identifier.event 0, recordedAt := Moment.utc 0 }

/-- An answer without stamps. -/
def Answer.undated : Answer → Answer
  | .escrow e => .escrow e.undated
  | .condition c => .condition c.undated

namespace Store

/-- What a store has about an escrow. -/
def part (s : Store) (x : Identifier) : Store :=
  ⟨s.escrows.filter fun e => e.id = x, s.conditions.filter fun c => c.escrow = x,
    s.events.filter fun v => v.escrow = x⟩

/-- A store without stamps. -/
def undated (s : Store) : Store :=
  ⟨s.escrows.map Escrow.undated, s.conditions.map Condition.undated, s.events.map Event.undated⟩

/-- What a store has about an escrow, without stamps. -/
def plain (s : Store) (x : Identifier) : Store := (s.part x).undated

/-- The store with writes about an escrow; `n` numbers the first event. -/
def written (s : Store) (now : Moment) (x : Identifier) (n : Nat) (w : Writes) : Store :=
  (s.changed now x w).enterAll now x n w.drafts

end Store

/-- Whether a record is sound does not depend on its stamps. -/
theorem Escrow.Sound.of_undated {e d : Escrow} (h : e.Sound) (hd : d.undated = e.undated) :
    d.Sound := by
  have hu : d.undated.Sound := hd ▸
    ⟨h.released_iff, h.settled_iff, h.paid, h.buyer, h.seller, h.amount⟩
  exact ⟨hu.released_iff, hu.settled_iff, hu.paid, hu.buyer, hu.seller, hu.amount⟩

/-! ## Plans -/

section Plans

variable (e : Escrow) (cs : List Condition)

theorem openConditions_undated :
    openConditions (cs.map Condition.undated) = (openConditions cs).map Condition.undated := by
  unfold openConditions
  rw [List.filter_map]
  rfl

theorem permitRelease_undated (manual : Bool) (by' : Caller) :
    permitRelease e.undated (cs.map Condition.undated) manual by' =
      permitRelease e cs manual by' := by
  unfold permitRelease
  rw [openConditions_undated, List.length_map]
  simp only [List.map_eq_nil_iff]
  rfl

theorem planRelease_undated (manual : Bool) (by' : Caller) :
    planRelease manual by' e.undated (cs.map Condition.undated) = planRelease manual by' e cs := by
  unfold planRelease
  rw [permitRelease_undated]
  rfl

/-- The plan of a task does not look at a stamp. -/
theorem plan_undated (t : Task) (now : Moment) (by' : Caller) :
    t.plan now by' e.undated (cs.map Condition.undated) = t.plan now by' e cs := by
  cases t with
  | release manual => exact planRelease_undated e cs manual by'
  | _ => rfl

theorem find?_undated (condition : Identifier) :
    (cs.map Condition.undated).find? (fun c => c.id = condition) =
      (cs.find? fun c => c.id = condition).map Condition.undated := by
  rw [List.find?_map]
  rfl

/-- Nor does the plan of a confirmation. -/
theorem planConfirmation_undated (condition : Identifier) (by' : Caller) :
    planConfirmation condition by' e.undated (cs.map Condition.undated) =
      planConfirmation condition by' e cs := by
  unfold planConfirmation
  rw [find?_undated]
  cases cs.find? fun c => c.id = condition with
  | none => rfl
  | some c =>
    -- The conditions as they would be with this one met differ in stamps only, too.
    have hrest : ((cs.map Condition.undated).map fun c =>
        if c.id = condition then { c with met := true } else c) =
        (cs.map fun c => if c.id = condition then { c with met := true } else c).map
          Condition.undated := by
      rw [List.map_map, List.map_map]
      refine List.map_congr_left fun d _ => ?_
      simp only [Function.comp_apply]
      by_cases hd : d.id = condition
      · rw [if_pos hd, if_pos (show d.undated.id = condition from hd)]
        rfl
      · rw [if_neg hd, if_neg (show ¬d.undated.id = condition from hd)]
    simp only [Option.map_some, hrest, planRelease_undated, openConditions_undated,
      List.map_eq_nil_iff]
    rfl

end Plans

/-! ## What writes make of a record -/

namespace Writes

variable (w : Writes) (now now' : Moment)

theorem foldl_undated (changes : List Change) (e : Escrow) :
    changes.foldl Change.apply e.undated = (changes.foldl Change.apply e).undated := by
  induction changes generalizing e with
  | nil => rfl
  | cons c rest ih =>
    have hc : c.apply e.undated = (c.apply e).undated := by cases c <;> rfl
    rw [List.foldl_cons, List.foldl_cons, hc, ih]

theorem view_undated (e : Escrow) : (w.view now' e.undated).undated = (w.view now e).undated := by
  unfold view
  cases w.patch with
  | none => rfl
  | some p =>
    cases p with
    | terms changes =>
      simp only [Patch.applyAt, Patch.apply, foldl_undated]
      rfl
    | _ => rfl

/-- What writes make of records that differ in stamps differs in stamps. -/
theorem view_congr {e e' : Escrow} (h : e.undated = e'.undated) :
    (w.view now e).undated = (w.view now' e').undated := by
  rw [← view_undated w now now, h, view_undated w now' now]

theorem onCondition_undated (c : Condition) :
    (w.onCondition now' c.undated).undated = (w.onCondition now c).undated := by
  unfold onCondition
  cases w.met with
  | none =>
    simp only [Condition.undated, Option.map_map]
    rfl
  | some m =>
    by_cases hc : c.id = m.1
    · simp only [if_pos hc, if_pos (show c.undated.id = m.1 from hc)]
      rfl
    · simp only [if_neg hc, if_neg (show ¬c.undated.id = m.1 from hc)]
      simp only [Condition.undated, Option.map_map]
      rfl

theorem onCondition_congr {c c' : Condition} (h : c.undated = c'.undated) :
    (w.onCondition now c).undated = (w.onCondition now' c').undated := by
  rw [← onCondition_undated w now now, h, onCondition_undated w now' now]

end Writes

/-! ## What writes make of a store -/

theorem map_eq_map_of_map_eq {α β γ : Type} {f : α → β} {g g' : α → γ} {l l' : List α}
    (hl : l.map f = l'.map f) (h : ∀ {a b}, f a = f b → g a = g' b) : l.map g = l'.map g' := by
  induction l generalizing l' with
  | nil =>
    have hnil : l' = [] := List.map_eq_nil_iff.mp hl.symm
    rw [hnil]
    rfl
  | cons a l ih =>
    cases l' with
    | nil => cases hl
    | cons b l' =>
      obtain ⟨hab, hl⟩ := List.cons.inj hl
      rw [List.map_cons, List.map_cons, h hab, ih hl]

namespace Store

theorem plain_mk (s : Store) (x : Identifier) :
    s.plain x = ⟨(s.escrows.filter fun e => e.id = x).map Escrow.undated,
      (s.conditions.filter fun c => c.escrow = x).map Condition.undated,
      (s.events.filter fun v => v.escrow = x).map Event.undated⟩ := rfl

theorem plain_eq_iff {s t : Store} {x : Identifier} :
    s.plain x = t.plain x ↔
      (s.escrows.filter fun e => e.id = x).map Escrow.undated =
        (t.escrows.filter fun e => e.id = x).map Escrow.undated ∧
      (s.conditionsOf x).map Condition.undated = (t.conditionsOf x).map Condition.undated ∧
      (s.events.filter fun v => v.escrow = x).map Event.undated =
        (t.events.filter fun v => v.escrow = x).map Event.undated := by
  rw [plain_mk, plain_mk, Store.mk.injEq]
  rfl

theorem stored?_eq_head? (s : Store) (x : Identifier) : s.stored? x = (s.part x).escrows.head? :=
  (List.head?_filter ..).symm

theorem stored?_of_part {s t : Store} {x : Identifier} (h : s.part x = t.part x) :
    s.stored? x = t.stored? x := by
  rw [stored?_eq_head?, stored?_eq_head?, h]

theorem conditionsOf_of_part {s t : Store} {x : Identifier} (h : s.part x = t.part x) :
    s.conditionsOf x = t.conditionsOf x :=
  congrArg Store.conditions h

theorem plain_of_part {s t : Store} {x : Identifier} (h : s.part x = t.part x) :
    s.plain x = t.plain x := by
  rw [plain, plain, h]

theorem stored?_of_plain {s t : Store} {x : Identifier} (h : s.plain x = t.plain x) :
    (s.stored? x).map Escrow.undated = (t.stored? x).map Escrow.undated := by
  rw [stored?_eq_head?, stored?_eq_head?, ← List.head?_map, ← List.head?_map]
  exact congrArg (fun u : Store => u.escrows.head?) h

/-! ### Other escrows -/

theorem filter_map_eq {α : Type} {f : α → α} {p : α → Bool} {l : List α} (hp : ∀ a, p (f a) = p a)
    (hf : ∀ a ∈ l, p a = true → f a = a) : (l.map f).filter p = l.filter p := by
  rw [List.filter_map, show p ∘ f = p from funext hp]
  refine (List.map_congr_left fun a ha => ?_).trans (List.map_id _)
  exact hf a (List.mem_filter.mp ha).1 (List.mem_filter.mp ha).2

theorem filter_enterAll_of_ne {x y : Identifier} (h : y ≠ x) (now : Moment) (ds : List EventDraft)
    (s : Store) (n : Nat) :
    (s.enterAll now x n ds).events.filter (fun v => v.escrow = y) =
      s.events.filter fun v => v.escrow = y := by
  induction ds generalizing s n with
  | nil => rfl
  | cons d ds ih =>
    rw [enterAll, ih, events_enter, List.filter_append, List.filter_cons_of_neg, List.filter_nil,
      List.append_nil]
    simpa using Ne.symm h

/-- Writes about one escrow leave the others alone. A condition that is met with them is one of
that escrow. -/
theorem part_written {s : Store} {x y : Identifier} {w : Writes} (h : y ≠ x)
    (hw : ∀ c ∈ s.conditions, ∀ m, w.met = some m → c.id = m.1 → c.escrow = x) (now : Moment)
    (n : Nat) : (s.written now x n w).part y = s.part y := by
  have hescrows : (s.escrows.map (w.onRecord now x)).filter (fun e => e.id = y) =
      s.escrows.filter fun e => e.id = y := by
    refine filter_map_eq (fun e => by rw [Writes.onRecord_id]) fun e _ hy => ?_
    have hne : e.id ≠ x := fun hx => h ((of_decide_eq_true hy).symm.trans hx)
    rw [Writes.onRecord, if_neg hne]
  have hconditions : (s.conditions.map (w.onCondition now)).filter (fun c => c.escrow = y) =
      s.conditions.filter fun c => c.escrow = y := by
    refine filter_map_eq (fun c => by rw [Writes.onCondition_escrow]) fun c hc hy => ?_
    unfold Writes.onCondition
    split
    next k user hm =>
      have hne : c.id ≠ k := fun hk =>
        h ((of_decide_eq_true hy).symm.trans (hw c hc (k, user) hm hk))
      rw [if_neg hne]
    next => rfl
  unfold part written
  rw [escrows_enterAll, conditions_enterAll, filter_enterAll_of_ne h]
  show Store.mk _ _ _ = Store.mk _ _ _
  rw [← hescrows, ← hconditions]
  rfl

/-- So does a deed. -/
theorem part_written_deed {s : Store} {x y : Identifier} {w : Writes} {by' : Caller} {e : Escrow}
    {paid : Option (SettleRequest × String)} (hn : (s.conditions.map (·.id)).Nodup)
    (hd : Deed by' e (s.conditionsOf x) w paid) (h : y ≠ x) (now : Moment) (n : Nat) :
    (s.written now x n w).part y = s.part y := by
  refine part_written h (fun c hc m hm hid => ?_) now n
  obtain ⟨d, hdx, hdm, -⟩ := hd.met_open hm
  obtain ⟨hds, hdx⟩ := List.mem_filter.mp hdx
  rw [List.inj_on_of_nodup_map hn hc hds (hid.trans hdm.symm)]
  exact of_decide_eq_true hdx

/-! ### The escrow itself -/

theorem filter_map_onRecord (s : Store) (now : Moment) (x : Identifier) (w : Writes) :
    (s.escrows.map (w.onRecord now x)).filter (fun e => e.id = x) =
      (s.escrows.filter fun e => e.id = x).map (w.view now) := by
  rw [List.filter_map]
  have hp : ((fun e : Escrow => decide (e.id = x)) ∘ w.onRecord now x) =
      fun e => decide (e.id = x) := by
    funext e
    simp only [Function.comp_apply, Writes.onRecord_id]
  rw [hp]
  refine List.map_congr_left fun e he => ?_
  rw [Writes.onRecord, if_pos (by simpa using (List.mem_filter.mp he).2)]

theorem conditionsOf_changed (s : Store) (now : Moment) (x y : Identifier) (w : Writes) :
    (s.changed now x w).conditionsOf y = (s.conditionsOf y).map (w.onCondition now) := by
  unfold conditionsOf changed
  rw [List.filter_map]
  have hp : ((fun c : Condition => decide (c.escrow = y)) ∘ w.onCondition now) =
      fun c => decide (c.escrow = y) := by
    funext c
    simp only [Function.comp_apply, Writes.onCondition_escrow]
  rw [hp]

theorem nextSequence_congr {s t : Store} {x : Identifier}
    (h : (s.events.filter fun v => v.escrow = x).map Event.undated =
      (t.events.filter fun v => v.escrow = x).map Event.undated) :
    s.nextSequence x = t.nextSequence x := by
  have hseq := congrArg (fun l : List Event => (l.map (·.sequence)).foldl max 0 + 1) h
  simp only [List.map_map] at hseq
  exact hseq

theorem filter_enterAll_congr {x : Identifier} (now now' : Moment) (ds : List EventDraft)
    {s t : Store} (n n' : Nat)
    (h : (s.events.filter fun v => v.escrow = x).map Event.undated =
      (t.events.filter fun v => v.escrow = x).map Event.undated) :
    ((s.enterAll now x n ds).events.filter fun v => v.escrow = x).map Event.undated =
      ((t.enterAll now' x n' ds).events.filter fun v => v.escrow = x).map Event.undated := by
  induction ds generalizing s t n n' with
  | nil => exact h
  | cons d ds ih =>
    refine ih (n + 1) (n' + 1) ?_
    rw [events_enter, events_enter, List.filter_append, List.filter_append, List.map_append,
      List.map_append, h, nextSequence_congr h, List.filter_cons_of_pos (by simp),
      List.filter_cons_of_pos (by simp)]
    rfl

/-- The same writes about records that differ in stamps give records that differ in stamps. -/
theorem plain_written {s t : Store} {x : Identifier} (h : s.plain x = t.plain x) (w : Writes)
    (now now' : Moment) (n n' : Nat) :
    (s.written now x n w).plain x = (t.written now' x n' w).plain x := by
  obtain ⟨he, hc, hv⟩ := plain_eq_iff.mp h
  refine plain_eq_iff.mpr ⟨?_, ?_, ?_⟩
  · unfold written
    rw [escrows_enterAll, escrows_enterAll]
    show ((s.escrows.map (w.onRecord now x)).filter fun e => e.id = x).map Escrow.undated =
      ((t.escrows.map (w.onRecord now' x)).filter fun e => e.id = x).map Escrow.undated
    rw [filter_map_onRecord, filter_map_onRecord, List.map_map, List.map_map]
    exact map_eq_map_of_map_eq he fun hab => w.view_congr now now' hab
  · have hconditions : ∀ (u : Store) (m : Moment) (k : Nat),
        (u.written m x k w).conditionsOf x = (u.conditionsOf x).map (w.onCondition m) := by
      intro u m k
      rw [← conditionsOf_changed u m x x w, written, conditionsOf, conditions_enterAll]
      rfl
    rw [hconditions, hconditions, List.map_map, List.map_map]
    exact map_eq_map_of_map_eq hc fun hab => w.onCondition_congr now now' hab
  · exact filter_enterAll_congr now now' w.drafts n n' hv

end Store

end Custody

import Custody.Proofs.Terms

/-!
# Rows of a run

The tables look at every row that is put in. What a run puts in passes: the columns that have to be
there are there, the checks hold, no escrow has a party twice, and no number of an event occurs again
in the log of its escrow, whatever was entered before it. The numbers are the reason why an event
can be entered at any time, also in work that comes to nothing in the end.

> `Store.Tidy.enterAll`: events can always be entered.
> `Operation.Comes.accepted`: what an operation leaves is accepted row by row.
> `Reachable.tidy`: so are the records of every run.
-/

namespace Custody

/-! ## Records as rows -/

/-- The parties of an escrow as rows. -/
def Escrow.partyRows (e : Escrow) : List PartyRow :=
  e.parties.map fun p => ⟨some e.id, some p.user, some (word p.role)⟩

/-- A condition as a row. -/
def Condition.row (c : Condition) : ConditionRow :=
  { escrow := some c.escrow, description := some c.description, type := word c.type
    metadata := (c.metadata.map Json.object).getD .null, met := c.met, metAt := c.metAt
    metBy := c.metBy }

/-- An event as a row. -/
def Event.row (b : Event) : EventRow :=
  { escrow := some b.escrow, sequence := some b.sequence, type := some (word b.type)
    actor := b.actor, oldStatus := b.oldStatus, newStatus := b.newStatus, data := b.data.toJson
    address := b.address }

namespace Store

/-- Nothing is to be said against any row, given the rows that were there before it. -/
structure Accepted (s : Store) : Prop where
  escrows : ∀ e ∈ s.escrows, e.row.fault? = none
  parties : InTurn (fun before r => r.fault? before = none) (s.escrows.flatMap Escrow.partyRows)
  conditions : ∀ c ∈ s.conditions, c.row.fault? = none
  events : InTurn (fun before r => r.fault? before = none) (s.events.map Event.row)

/-- What it takes, beside sound records, for all rows to be accepted. -/
structure Tidy (s : Store) : Prop where
  parties : ∀ e ∈ s.escrows, e.parties.Nodup
  events : InTurn (fun before r => r.fault? before = none) (s.events.map Event.row)

end Store

/-! ## Parties -/

theorem Role.ofWord?_word (r : Role) : ofWord? (word r) = some r := by
  cases r <;> decide

theorem Role.word_injective {r r' : Role} (h : word r = word r') : r = r' := by
  have hread : (ofWord? (word r) : Option Role) = ofWord? (word r') := congrArg ofWord? h
  rw [ofWord?_word, ofWord?_word] at hread
  exact Option.some.inj hread

/-- A party that has not been put in is accepted. -/
theorem Escrow.partyRow_fault?_eq_none {e : Escrow} {r : PartyRow} {before : List PartyRow}
    (hr : r ∈ e.partyRows) (hnew : r ∉ before) : r.fault? before = none := by
  obtain ⟨p, -, rfl⟩ := List.mem_map.mp hr
  simp [PartyRow.fault?, missingColumn, failedCheck, Role.ofWord?_word, hnew]

theorem Escrow.nodup_partyRows {e : Escrow} (h : e.parties.Nodup) : e.partyRows.Nodup := by
  refine h.map fun p q hpq => ?_
  obtain ⟨-, huser, hrole⟩ := PartyRow.mk.inj hpq
  cases p
  cases q
  rw [Party.mk.injEq]
  exact ⟨Option.some.inj huser, Role.word_injective (Option.some.inj hrole)⟩

/-- The parties of different escrows are different rows. -/
theorem Escrow.disjoint_partyRows {d e : Escrow} (h : d.id ≠ e.id) :
    d.partyRows.Disjoint e.partyRows := by
  intro r hd he
  obtain ⟨p, -, rfl⟩ := List.mem_map.mp hd
  obtain ⟨q, -, hq⟩ := List.mem_map.mp he
  exact h (Option.some.inj (PartyRow.mk.inj hq).1).symm

/-! ## Events -/

/-- The next event of an escrow is accepted. -/
theorem Event.row_fault?_eq_none {s : Store} {b : Event} (h : b.sequence = s.nextSequence b.escrow) :
    b.row.fault? (s.events.map Event.row) = none := by
  have hnew : ∀ a ∈ s.events, ¬(a.escrow = b.escrow ∧ a.sequence = b.sequence) := by
    rintro a ha ⟨hx, hk⟩
    have := Store.nextSequence_gt ha hx
    omega
  have hany : ((s.events.map Event.row).any fun r =>
      r.escrow = b.row.escrow ∧ r.sequence = b.row.sequence) = false := by
    rw [List.any_map, List.any_eq_false]
    intro a ha
    simpa [Event.row, Int.natCast_inj] using hnew a ha
  simp only [EventRow.fault?, hany]
  rfl

namespace Store

variable {s : Store}

theorem Tidy.enter (h : s.Tidy) (now : Moment) (x : Identifier) (n : Nat) (d : EventDraft) :
    (s.enter now x n d).Tidy := by
  refine ⟨h.parties, ?_⟩
  rw [events_enter, List.map_append, List.map_singleton, inTurn_concat]
  exact ⟨h.events, Event.row_fault?_eq_none rfl⟩

/-- Events can be entered at any time. -/
theorem Tidy.enterAll (h : s.Tidy) (now : Moment) (x : Identifier) (n : Nat)
    (ds : List EventDraft) : (s.enterAll now x n ds).Tidy := by
  induction ds generalizing s n with
  | nil => exact h
  | cons d ds ih => exact ih (h.enter now x n d) (n + 1)

theorem Tidy.changed (h : s.Tidy) (now : Moment) (x : Identifier) (w : Writes) :
    (s.changed now x w).Tidy := by
  refine ⟨fun e he => ?_, h.events⟩
  obtain ⟨d, hd, rfl⟩ := List.mem_map.mp he
  unfold Writes.onRecord
  split
  next =>
    rw [(Writes.view_people w now d).1]
    exact h.parties d hd
  next => exact h.parties d hd

theorem Tidy.add (h : s.Tidy) {e : Escrow} (he : e.parties.Nodup) (cs : List Condition) :
    (s.add e cs).Tidy := by
  refine ⟨fun d hd => ?_, h.events⟩
  rcases List.mem_append.mp hd with hd | hd
  · exact h.parties d hd
  · rw [List.mem_singleton.mp hd]
    exact he

/-- Every row of tidy records that are sound is accepted. -/
theorem Tidy.accepted {c : Counters} (h : s.Tidy) (hk : Kept s c) : s.Accepted := by
  refine ⟨fun e he => Escrow.row_fault?_eq_none (hk.sound e he), ?_, fun _ _ => rfl, h.events⟩
  refine inTurn_of_nodup ?_ fun before r hr hnew => ?_
  · rw [List.nodup_flatMap]
    refine ⟨fun e he => Escrow.nodup_partyRows (h.parties e he), ?_⟩
    exact (List.pairwise_map.mp hk.distinct).imp fun hne => Escrow.disjoint_partyRows hne
  · obtain ⟨e, -, hr⟩ := List.mem_flatMap.mp hr
    exact Escrow.partyRow_fault?_eq_none hr hnew

end Store

/-! ## Operations -/

/-- Operations leave records tidy. -/
theorem Operation.Comes.tidy {env : Surroundings} {by' : Caller} {op : Operation} {seen s : Store}
    {c : Counters} {o : Outcome Answer} (ho : op.Comes env by' seen s c o) (h : s.Tidy) :
    o.store.Tidy := by
  cases ho with
  | failed hf =>
    rw [hf.store]
    exact h
  | idle => exact h
  | created _ hn hf he hc =>
    subst he
    exact (h.add (formParties_nodup (NewEscrow.define_formed hn)) _).enter _ _ _ _
  | @done o e w paid _ hd answer =>
    show o.store.Tidy
    rw [hd.store]
    exact (h.changed _ _ _).enterAll _ _ _ _

/-- What an operation leaves is accepted row by row. -/
theorem Operation.Comes.accepted {env : Surroundings} {by' : Caller} {op : Operation}
    {seen s : Store} {c : Counters} {o : Outcome Answer} (ho : op.Comes env by' seen s c o)
    (hk : Kept s c) (h : s.Tidy) : o.store.Accepted :=
  (ho.tidy h).accepted (hk.comes ho)

/-- The records of every run are tidy. -/
theorem Reachable.tidy {v : Service} (h : Reachable v) : v.store.Tidy := by
  induction h with
  | start => exact ⟨(fun _ he => nomatch he), inTurn_nil⟩
  | @step v a hv ih =>
    cases a with
    | operation by' op => exact (op.run_comes v.surroundings hv.kept.sound by' v.store _).tidy ih
    | _ => exact ih

end Custody

import Custody.Proofs.Chronicle

/-!
# Attempts

What operations make of the records, whatever surrounds each of them: the time, a lock that cannot be
had, a database that is out of order, and a ledger that answers as it likes, now this way and now
another. A run of a service, and one of a service with a gateway, are sequences of such attempts.

> `Records.kept_run`: records that attempts have left are sound.
> `Reachable.attempted`: attempts lead to the records of every run.
> `Records.mem_run_of_isTerminal`: the record of an escrow that is closed stays as it is.
-/

namespace Custody

/-- The records, and how many numbers are used up. -/
structure Records where
  store : Store
  counters : Counters

/-- An operation of somebody, with all that surrounds it. -/
structure Attempt where
  env : Surroundings
  caller : Caller
  op : Operation

namespace Records

/-- No records. -/
def start : Records := ⟨Store.empty, ⟨0, 0, 0⟩⟩

/-- What is left of an attempt. -/
def outcome (r : Records) (a : Attempt) : Outcome Answer :=
  a.op.run a.env a.caller r.store r.store r.counters

/-- The records after an attempt. -/
def after (r : Records) (a : Attempt) : Records := ⟨(r.outcome a).store, (r.outcome a).counters⟩

/-- The records after attempts, one after another. -/
def run (r : Records) (as : List Attempt) : Records := as.foldl after r

theorem run_concat (r : Records) (as : List Attempt) (a : Attempt) :
    r.run (as ++ [a]) = (r.run as).after a := List.foldl_concat ..

theorem kept_after {r : Records} (h : Kept r.store r.counters) (a : Attempt) :
    Kept (r.after a).store (r.after a).counters :=
  h.comes (a.op.run_comes a.env h.sound a.caller r.store r.counters)

/-- Records that attempts have left are sound. -/
theorem kept_run (as : List Attempt) : Kept (start.run as).store (start.run as).counters := by
  induction as using List.reverseRec with
  | nil => exact Kept.empty _
  | append_singleton as a ih =>
    rw [run_concat]
    exact kept_after ih a

end Records

/-- The records of a service. -/
def Service.records (v : Service) : Records := ⟨v.store, v.counters⟩

@[simp]
theorem Service.store_records (v : Service) : v.records.store = v.store := rfl

/-- Attempts lead to the records of every run of a service. -/
theorem Reachable.attempted {v : Service} (h : Reachable v) :
    ∃ as, Records.start.run as = v.records := by
  induction h with
  | start clock settings dispatcher lease => exact ⟨[], rfl⟩
  | @step v a _ ih =>
    obtain ⟨as, ih⟩ := ih
    cases a with
    | operation by' op =>
      refine ⟨as ++ [⟨v.surroundings, by', op⟩], ?_⟩
      rw [Records.run_concat, ih]
      rfl
    | clock i => exact ⟨as, ih⟩
    | ledgerFails f => exact ⟨as, ih⟩
    | ledgerView e w => exact ⟨as, ih⟩
    | ledgerUnreadable e f => exact ⟨as, ih⟩
    | dispatcherBreaks reason => exact ⟨as, ih⟩
    | databaseBreaks reason => exact ⟨as, ih⟩
    | lease l => exact ⟨as, ih⟩

/-! ## Closed escrows -/

/-- An operation leaves the record of an escrow that is closed as it is. -/
theorem Operation.Comes.mem_of_isTerminal {env : Surroundings} {by' : Caller} {op : Operation}
    {seen s : Store} {c : Counters} {o : Outcome Answer} (h : op.Comes env by' seen s c o)
    (hk : Kept s c) {e : Escrow} (he : e ∈ s.escrows) (ht : e.status.isTerminal = true) :
    e ∈ o.store.escrows := by
  cases h with
  | failed h =>
    rw [h.store]
    exact he
  | idle => exact he
  | created => exact List.mem_append_left _ he
  | @done o d w paid _ h answer =>
    show e ∈ o.store.escrows
    rw [h.store, Store.escrows_enterAll]
    refine List.mem_map.mpr ⟨e, he, ?_⟩
    unfold Writes.onRecord
    split
    next hid =>
      obtain rfl : e = d :=
        List.inj_on_of_nodup_map hk.distinct he (List.mem_of_find?_eq_some h.stored) hid
      obtain ⟨hw, -⟩ := h.deed.come_of_isTerminal ht
      exact Writes.view_of_none hw.patch_eq ..
    next => rfl

namespace Records

/-- However the attempts go on, the record of an escrow that is closed stays as it is. -/
theorem mem_run_of_isTerminal {r : Records} (hk : Kept r.store r.counters) {e : Escrow}
    (he : e ∈ r.store.escrows) (ht : e.status.isTerminal = true) (as : List Attempt) :
    Kept (r.run as).store (r.run as).counters ∧ e ∈ (r.run as).store.escrows := by
  induction as using List.reverseRec with
  | nil => exact ⟨hk, he⟩
  | append_singleton as a ih =>
    obtain ⟨hk, he⟩ := ih
    rw [run_concat]
    have hcomes := a.op.run_comes a.env hk.sound a.caller (r.run as).store (r.run as).counters
    exact ⟨kept_after hk a, hcomes.mem_of_isTerminal hk he ht⟩

end Records

end Custody

import Custody.Service.Creation

/-!
# Operations

Everything that can be asked of the service and changes its records: an escrow is created, a task is
done on one, a condition is confirmed. A confirmation looks the condition up before it waits for the
lock of its escrow, and looks again once it has it.

> `run_store_of_error`: an operation that fails leaves the store as it was.
-/

namespace Custody

/-- A mutating operation. -/
inductive Operation where
  | create (terms : NewEscrow)
  | task (escrow : Identifier) (t : Task)
  | confirm (condition : Identifier)

/-- What an operation answers with. -/
inductive Answer where
  | escrow (e : Escrow)
  | condition (c : Condition)
deriving Repr

/-- Confirms a condition. `seen` is the store as it was when the condition was looked up. -/
def confirmCondition (env : Surroundings) (by' : Caller) (condition : Identifier) (seen s : Store)
    (c : Counters) : Outcome Answer :=
  match env.database with
  | some e => .refused s c [] (.breakdown e)
  | none =>
    match seen.condition? condition with
    | none => .refused s c [] (.escrow (.conditionNotFound condition.text))
    | some k =>
      if k.met then .settled s c [alreadyMetLog condition] (.condition k)
      else
        let o := underLock env k.escrow
          (carryOut env k.escrow (planConfirmation condition by')) s c
        o.mapResult fun _ => .condition ((o.store.condition? condition).getD k)

/-- Carries out an operation. `seen` is the store as it was when the operation began, `s` the store
once its turn has come. -/
def Operation.run (env : Surroundings) (by' : Caller) (op : Operation) (seen s : Store)
    (c : Counters) : Outcome Answer :=
  match op with
  | .create n => (createEscrow env by' n s c).mapResult .escrow
  | .task e t => (underLock env e (carryOut env e fun r cs => t.plan env.now by' r cs) s c).mapResult .escrow
  | .confirm k => confirmCondition env by' k seen s c

/-! ## Laws -/

@[simp]
theorem Outcome.store_mapResult {α β : Type} (f : α → β) (o : Outcome α) :
    (o.mapResult f).store = o.store := rfl

theorem Outcome.result_mapResult_error {α β : Type} {f : α → β} {o : Outcome α} {e : Failure}
    (h : (o.mapResult f).result = .error e) : o.result = .error e := by
  cases ho : o.result with
  | ok a => simp [mapResult, ho, Except.map] at h
  | error g => simpa [mapResult, ho, Except.map] using h

/-- Work that leaves the store as it was when it fails still does so under a lock. -/
theorem underLock_store_of_error {α : Type} {env : Surroundings} {id : Identifier}
    {work : Store → Counters → Outcome α} {s : Store} {c : Counters} {f : Failure}
    (hw : ∀ g, (work s c).result = .error g → (work s c).store = s)
    (h : (underLock env id work s c).result = .error f) :
    (underLock env id work s c).store = s := by
  unfold underLock at h ⊢
  split
  · rfl
  · rename_i hl
    simp only [hl] at h
    cases hd : env.database with
    | some e => rfl
    | none => simp only [hd] at h ⊢; exact hw f h

/-- An operation that fails leaves the store as it was. -/
theorem Operation.run_store_of_error {env : Surroundings} {by' : Caller} {op : Operation}
    {seen s : Store} {c : Counters} {f : Failure}
    (h : (op.run env by' seen s c).result = .error f) :
    (op.run env by' seen s c).store = s := by
  cases op with
  | create n =>
    simp only [Operation.run, Outcome.store_mapResult] at h ⊢
    exact createEscrow_store_of_error (Outcome.result_mapResult_error h)
  | task e t =>
    simp only [Operation.run, Outcome.store_mapResult] at h ⊢
    exact underLock_store_of_error (fun _ => carryOut_store_of_error)
      (Outcome.result_mapResult_error h)
  | confirm k =>
    simp only [Operation.run, confirmCondition] at h ⊢
    cases hd : env.database with
    | some e => rfl
    | none =>
      simp only [hd] at h ⊢
      cases hk : seen.condition? k with
      | none => rfl
      | some q =>
        simp only [hk] at h ⊢
        by_cases hm : q.met = true
        · simp [hm, Outcome.settled]
        · simp only [hm] at h ⊢
          exact underLock_store_of_error (fun _ => carryOut_store_of_error)
            (Outcome.result_mapResult_error h)

end Custody
